import AgentRuntime.Node.NodeRegistry

/-!
# What registry operations do to a node lifetime

A lifetime is a NodeID together with an incarnation. For each operation one
lemma says what it does to the registered lifetimes, to their pools and to
their states; nothing later unfolds an operation again.
-/
namespace AgentRuntime

namespace NodeRegistry

/-- The incarnation registered under a NodeID and its schedulable pool. -/
def poolOf (reg : NodeRegistry) (id : NodeID) : Option (Nat × ResourcePool) :=
  (reg.nodes.lookup id).map fun stored => (stored.record.incarnation, stored.schedulablePool)

/-- The incarnation registered under a NodeID and its liveness state. -/
def stateOf (reg : NodeRegistry) (id : NodeID) : Option (Nat × NodeState) :=
  (reg.nodes.lookup id).map fun stored => (stored.record.incarnation, stored.record.state)

/-- The incarnation registered under a NodeID. -/
def lifetimeOf (reg : NodeRegistry) (id : NodeID) : Option Nat :=
  (reg.nodes.lookup id).map fun stored => stored.record.incarnation

theorem poolOf_of_lookup {reg : NodeRegistry} {id : NodeID} {stored : StoredNode}
    (h : reg.nodes.lookup id = some stored) :
    reg.poolOf id = some (stored.record.incarnation, stored.schedulablePool) := by
  simp [poolOf, h]

theorem lookup_of_poolOf {reg : NodeRegistry} {id : NodeID} {i : Nat} {pool : ResourcePool}
    (h : reg.poolOf id = some (i, pool)) : ∃ stored, reg.nodes.lookup id = some stored ∧
      stored.record.incarnation = i ∧ stored.schedulablePool = pool := by
  obtain ⟨stored, hl, he⟩ := Option.map_eq_some_iff.mp h
  exact ⟨stored, hl, congrArg Prod.fst he, congrArg Prod.snd he⟩

theorem lifetimeOf_eq_poolOf (reg : NodeRegistry) (id : NodeID) :
    reg.lifetimeOf id = (reg.poolOf id).map Prod.fst := by
  simp only [lifetimeOf, poolOf, Option.map_map]
  rfl

theorem lifetimeOf_of_poolOf {reg : NodeRegistry} {id : NodeID} {i : Nat} {pool : ResourcePool}
    (h : reg.poolOf id = some (i, pool)) : reg.lifetimeOf id = some i := by
  rw [lifetimeOf_eq_poolOf, h]
  rfl

theorem lifetimeOf_eq_stateOf (reg : NodeRegistry) (id : NodeID) :
    reg.lifetimeOf id = (reg.stateOf id).map Prod.fst := by
  simp only [lifetimeOf, stateOf, Option.map_map]
  rfl

theorem insert_lookup_self {nodes : UnorderedMap NodeID StoredNode} {id : NodeID}
    {stored : StoredNode} (h : nodes.lookup id = some stored) : nodes.insert id stored = nodes := by
  apply Finmap.ext_lookup
  intro k
  rw [UnorderedMap.lookup_insert_eq]
  by_cases hk : k = id
  · rw [if_pos hk, hk, h]
  · rw [if_neg hk]

/-! ## The representation invariant -/

/-- What is true of every stored node. -/
structure ValidEntry (id : NodeID) (stored : StoredNode) : Prop where
  keyed : stored.record.nodeId = id
  notNil : id.isNil = false
  endpoint : stored.record.workerEndpoint.isEmpty = false
  incarnation : 0 < stored.record.incarnation
  synced : stored.record.schedulableAvailable = stored.schedulablePool.available

structure WellFormed (reg : NodeRegistry) : Prop where
  entries : ∀ id stored, reg.nodes.lookup id = some stored → ValidEntry id stored
  listed : ∀ id, id ∈ reg.registrationOrder ↔ ∃ stored, reg.nodes.lookup id = some stored
  once : reg.registrationOrder.Nodup

theorem wellFormed_empty : WellFormed empty where
  entries := by
    intro id stored h
    simp [empty] at h
  listed := by simp [empty]
  once := .nil

/-- Replacing the value of a key that is present. -/
theorem WellFormed.replace {reg : NodeRegistry} (h : WellFormed reg) {id : NodeID}
    {old new : StoredNode} (hl : reg.nodes.lookup id = some old) (hv : ValidEntry id new) :
    WellFormed { reg with nodes := reg.nodes.insert id new } where
  entries := by
    intro k stored hk
    rw [UnorderedMap.lookup_insert_eq] at hk
    split at hk
    · rename_i he
      cases hk
      rw [he]
      exact hv
    · exact h.entries k stored hk
  listed := by
    intro k
    rw [h.listed k, UnorderedMap.lookup_insert_eq]
    by_cases he : k = id
    · subst he
      simp [hl]
    · simp [he]
  once := h.once

/-! ## RegisterNode -/

/-- The checks of `RegisterNode` on the incoming record alone. -/
def acceptsRecord (node : NodeRecord) : Prop :=
  node.nodeId.isNil = false ∧ node.workerEndpoint.isEmpty = false ∧ 0 < node.incarnation

/-- `RegisterNode` passes its checks and finds no entry, or one of a smaller incarnation. -/
def startsLifetime (reg : NodeRegistry) (node : NodeRecord) : Prop :=
  acceptsRecord node ∧ ∀ i, reg.lifetimeOf node.nodeId = some i → i < node.incarnation

instance (node : NodeRecord) : Decidable (acceptsRecord node) :=
  inferInstanceAs (Decidable (_ ∧ _ ∧ _))

instance (reg : NodeRegistry) (node : NodeRecord) : Decidable (startsLifetime reg node) :=
  match h : reg.lifetimeOf node.nodeId with
  | none => decidable_of_iff (acceptsRecord node) (by simp [startsLifetime, h])
  | some i =>
    decidable_of_iff (acceptsRecord node ∧ i < node.incarnation) (by simp [startsLifetime, h])

/-- `RegisterNode` either leaves the registry as it is or starts a new lifetime, the first
one under its NodeID or one with a larger incarnation. -/
theorem registerNode_cases (reg : NodeRegistry) (node : NodeRecord) (now : Int) :
    (reg.registerNode node now).2 = reg ∨
    acceptsRecord node ∧ (reg.registerNode node now).1 = .OK ∧
      (reg.nodes.lookup node.nodeId = none ∧
        (reg.registerNode node now).2 =
          ⟨reg.nodes.insert node.nodeId (.new (freshRecord node now)),
            reg.registrationOrder ++ [node.nodeId]⟩ ∨
      ∃ stored, reg.nodes.lookup node.nodeId = some stored ∧
        stored.record.incarnation < node.incarnation ∧
        (reg.registerNode node now).2 =
          { reg with nodes := reg.nodes.insert node.nodeId (.new (freshRecord node now)) }) := by
  simp only [registerNode]
  by_cases hnil : node.nodeId.isNil = true
  · simp [hnil]
  by_cases hend : node.workerEndpoint.isEmpty = true
  · simp [hnil, hend]
  by_cases hinc : node.incarnation = 0
  · simp [hnil, hend, hinc]
  have haccepts : acceptsRecord node := ⟨by simpa using hnil, by simpa using hend, by omega⟩
  simp only [hnil, hend, hinc, if_false, Bool.false_eq_true]
  cases hl : reg.nodes.lookup node.nodeId with
  | none => exact .inr ⟨haccepts, rfl, .inl ⟨rfl, rfl⟩⟩
  | some stored =>
    by_cases hlt : node.incarnation < stored.record.incarnation
    · exact .inl (by simp [hlt])
    simp only [hlt, if_false]
    by_cases heq : node.incarnation = stored.record.incarnation
    · rw [if_pos heq]
      left
      split <;> rfl
    · rw [if_neg heq]
      exact .inr ⟨haccepts, rfl, .inr ⟨stored, rfl, by omega, rfl⟩⟩

theorem validEntry_fresh {node : NodeRecord} (h : acceptsRecord node) (now : Int) :
    ValidEntry node.nodeId (.new (freshRecord node now)) where
  keyed := rfl
  notNil := h.1
  endpoint := h.2.1
  incarnation := h.2.2
  synced := rfl

theorem WellFormed.registerNode {reg : NodeRegistry} (h : WellFormed reg) (node : NodeRecord)
    (now : Int) : WellFormed (reg.registerNode node now).2 := by
  obtain he | ⟨hv, -, ⟨hl, he⟩ | ⟨stored, hl, -, he⟩⟩ := registerNode_cases reg node now
  · rw [he]
    exact h
  · rw [he]
    have hnew : node.nodeId ∉ reg.registrationOrder := by
      rw [h.listed, hl]
      simp
    constructor
    · intro k stored hk
      rw [UnorderedMap.lookup_insert_eq] at hk
      split at hk
      · rename_i hkey
        cases hk
        rw [hkey]
        exact validEntry_fresh hv now
      · exact h.entries k stored hk
    · intro k
      rw [List.mem_append, h.listed k, UnorderedMap.lookup_insert_eq, List.mem_singleton]
      by_cases hkey : k = node.nodeId <;> simp [hkey]
    · exact List.nodup_append.mpr ⟨h.once, by simp, by
        rintro a ha b hb rfl
        rw [List.mem_singleton.mp hb] at ha
        exact hnew ha⟩
  · rw [he]
    exact h.replace hl (validEntry_fresh hv now)

/-- What `RegisterNode` does to the pools. -/
theorem registerNode_poolOf (reg : NodeRegistry) (node : NodeRecord) (now : Int) :
    (reg.registerNode node now).2 = reg ∨
    startsLifetime reg node ∧ ∀ id, (reg.registerNode node now).2.poolOf id =
      if id = node.nodeId then
        some (node.incarnation, ResourcePool.new node.reportedAvailable)
      else reg.poolOf id := by
  obtain he | ⟨haccepts, -, hcase⟩ := registerNode_cases reg node now
  · exact .inl he
  refine .inr ⟨⟨haccepts, ?_⟩, ?_⟩
  · intro i hi
    obtain ⟨hnone, -⟩ | ⟨stored, hl, hlt, -⟩ := hcase
    · simp [lifetimeOf, hnone] at hi
    · simp only [lifetimeOf, hl, Option.map_some, Option.some.injEq] at hi
      omega
  · intro id
    obtain ⟨-, he⟩ | ⟨stored, -, -, he⟩ := hcase <;>
    · rw [he, poolOf, UnorderedMap.lookup_insert_eq]
      split <;> rfl

/-! ## Heartbeat -/

/-- `Heartbeat` either leaves the registry as it is or renews a lifetime that is not dead. -/
theorem heartbeat_cases (reg : NodeRegistry) (nodeId : NodeID) (incarnation : Nat)
    (reported : ResourceSet) (runningTasks : Nat) (now : Int) :
    (reg.heartbeat nodeId incarnation reported runningTasks now).2 = reg ∨
    ∃ stored, reg.nodes.lookup nodeId = some stored ∧
      stored.record.incarnation = incarnation ∧ stored.record.state ≠ .dead ∧
      (reg.heartbeat nodeId incarnation reported runningTasks now).2 =
        { reg with nodes := reg.nodes.insert nodeId { stored with
          record := { stored.record with
            reportedAvailable := reported, runningTasks := runningTasks,
            lastHeartbeatReceived := now, state := .alive } } } := by
  simp only [heartbeat]
  split_ifs with hnil hinc
  · exact .inl rfl
  · exact .inl rfl
  cases hl : reg.nodes.lookup nodeId with
  | none => exact .inl rfl
  | some stored =>
    by_cases hne : stored.record.incarnation ≠ incarnation
    · simp [hne]
    by_cases hdead : stored.record.state = .dead
    · simp [hne, hdead]
    · simp only [hne, hdead, if_false]
      exact .inr ⟨stored, rfl, not_not.mp hne, hdead, rfl⟩

theorem WellFormed.heartbeat {reg : NodeRegistry} (h : WellFormed reg) (nodeId : NodeID)
    (incarnation : Nat) (reported : ResourceSet) (runningTasks : Nat) (now : Int) :
    WellFormed (reg.heartbeat nodeId incarnation reported runningTasks now).2 := by
  obtain he | ⟨stored, hl, -, -, he⟩ :=
    heartbeat_cases reg nodeId incarnation reported runningTasks now
  · rw [he]
    exact h
  · rw [he]
    have hv := h.entries nodeId stored hl
    exact h.replace hl ⟨hv.keyed, hv.notNil, hv.endpoint, hv.incarnation, hv.synced⟩

/-- No heartbeat touches a pool. -/
@[simp] theorem heartbeat_poolOf (reg : NodeRegistry) (nodeId : NodeID) (incarnation : Nat)
    (reported : ResourceSet) (runningTasks : Nat) (now : Int) (id : NodeID) :
    (reg.heartbeat nodeId incarnation reported runningTasks now).2.poolOf id = reg.poolOf id := by
  obtain he | ⟨stored, hl, -, -, he⟩ :=
    heartbeat_cases reg nodeId incarnation reported runningTasks now
  · rw [he]
  · rw [he]
    simp only [poolOf, UnorderedMap.lookup_insert_eq]
    by_cases hk : id = nodeId
    · subst hk
      simp [hl]
    · simp [hk]

/-- A heartbeat keeps every lifetime registered and revives none that is dead. -/
theorem heartbeat_stateOf (reg : NodeRegistry) (nodeId : NodeID) (incarnation : Nat)
    (reported : ResourceSet) (runningTasks : Nat) (now : Int) (id : NodeID) :
    (reg.heartbeat nodeId incarnation reported runningTasks now).2.stateOf id = reg.stateOf id ∨
    ∃ state, reg.stateOf id = some (incarnation, state) ∧ state ≠ .dead ∧
      (reg.heartbeat nodeId incarnation reported runningTasks now).2.stateOf id =
        some (incarnation, .alive) := by
  obtain he | ⟨stored, hl, hinc, hdead, he⟩ :=
    heartbeat_cases reg nodeId incarnation reported runningTasks now
  · rw [he]
    exact .inl rfl
  · rw [he]
    by_cases hk : id = nodeId
    · subst hk
      right
      refine ⟨stored.record.state, ?_, hdead, ?_⟩
      · simp [stateOf, hl, hinc]
      · simp [stateOf, hinc]
    · left
      simp [stateOf, hk]

/-! ## UpdateLiveness -/

/-- What one pass of the scan does to a stored node. -/
def rescan (now suspectTimeout deadTimeout : Int) (stored : StoredNode) : StoredNode :=
  if stored.record.state = .dead then stored
  else { stored with record := { stored.record with
    state := classify now suspectTimeout deadTimeout stored.record } }

/-- The node becomes dead in this pass. -/
def newlyDead (now suspectTimeout deadTimeout : Int) (stored : StoredNode) : Bool :=
  decide (stored.record.state ≠ .dead) &&
    decide (classify now suspectTimeout deadTimeout stored.record = .dead)

theorem rescan_rescan (now suspectTimeout deadTimeout : Int) (stored : StoredNode) :
    rescan now suspectTimeout deadTimeout (rescan now suspectTimeout deadTimeout stored) =
      rescan now suspectTimeout deadTimeout stored := by
  by_cases hd : stored.record.state = .dead
  · simp [rescan, hd]
  · simp only [rescan, hd, if_false]
    split <;> rfl

theorem scan_lookup (now suspectTimeout deadTimeout : Int) (order : List NodeID)
    (nodes : UnorderedMap NodeID StoredNode) (id : NodeID) :
    (scan now suspectTimeout deadTimeout order nodes).2.lookup id =
      if id ∈ order then (nodes.lookup id).map (rescan now suspectTimeout deadTimeout)
      else nodes.lookup id := by
  induction order generalizing nodes with
  | nil => simp [scan]
  | cons k rest ih =>
    simp only [scan]
    cases hl : nodes.lookup k with
    | none =>
      rw [ih]
      by_cases hk : id = k
      · subst hk
        simp [hl]
      · simp [hk]
    | some stored =>
      by_cases hd : stored.record.state = .dead
      · simp only [hd, if_true]
        rw [ih]
        by_cases hk : id = k
        · subst hk
          simp [hl, rescan, hd]
        · simp [hk]
      · have hnext : ∀ out : List DeadNodeLifetime × UnorderedMap NodeID StoredNode,
            out.2 = (scan now suspectTimeout deadTimeout rest
              (nodes.insert k { stored with record := { stored.record with
                state := classify now suspectTimeout deadTimeout stored.record } })).2 →
            out.2.lookup id = if id ∈ k :: rest
              then (nodes.lookup id).map (rescan now suspectTimeout deadTimeout)
              else nodes.lookup id := by
          intro out hout
          rw [hout, ih, UnorderedMap.lookup_insert_eq]
          by_cases hk : id = k
          · subst hk
            have hr : rescan now suspectTimeout deadTimeout stored =
                { stored with record := { stored.record with
                  state := classify now suspectTimeout deadTimeout stored.record } } := by
              simp [rescan, hd]
            simp only [if_true, List.mem_cons, true_or, hl, Option.map_some, ← hr, rescan_rescan]
            split <;> rfl
          · simp [hk]
        simp only [hd, if_false]
        split
        · exact hnext _ rfl
        · exact hnext _ rfl

/-- The scan announces the nodes it kills, in registration order. -/
theorem scan_announced (now suspectTimeout deadTimeout : Int) (order : List NodeID)
    (nodes : UnorderedMap NodeID StoredNode) (hnodup : order.Nodup) :
    (scan now suspectTimeout deadTimeout order nodes).1 =
      order.filterMap fun id => (nodes.lookup id).bind fun stored =>
        if newlyDead now suspectTimeout deadTimeout stored then
          some ⟨stored.record.nodeId, stored.record.incarnation⟩
        else none := by
  induction order generalizing nodes with
  | nil => rfl
  | cons k rest ih =>
    obtain ⟨hk, hrest⟩ := List.nodup_cons.mp hnodup
    simp only [scan, List.filterMap_cons]
    cases hl : nodes.lookup k with
    | none => simpa using ih nodes hrest
    | some stored =>
      by_cases hd : stored.record.state = .dead
      · simpa [hd, newlyDead] using ih nodes hrest
      · simp only [hd, if_false, Option.bind_some, newlyDead, ne_eq, not_false_eq_true,
          decide_true, Bool.true_and, decide_eq_true_eq]
        -- the entry written for `k` is not looked at again
        have hagree : ∀ nodes', (∀ id ∈ rest, nodes'.lookup id = nodes.lookup id) →
            (scan now suspectTimeout deadTimeout rest nodes').1 =
              rest.filterMap fun id => (nodes.lookup id).bind fun stored =>
                if newlyDead now suspectTimeout deadTimeout stored then
                  some ⟨stored.record.nodeId, stored.record.incarnation⟩
                else none := by
          intro nodes' hsame
          rw [ih nodes' hrest]
          apply List.filterMap_congr
          intro id hid
          rw [hsame id hid]
        have hins := hagree (nodes.insert k { stored with record := { stored.record with
            state := classify now suspectTimeout deadTimeout stored.record } }) (by
          intro id hid
          rw [UnorderedMap.lookup_insert_eq, if_neg (by rintro rfl; exact hk hid)])
        by_cases hc : classify now suspectTimeout deadTimeout stored.record = .dead
        · rw [hc] at hins ⊢
          simp only [if_true]
          rw [hins]
          simp [newlyDead]
        · simp only [hc, if_false]
          rw [hins]
          simp [newlyDead]

theorem updateLiveness_lookup (reg : NodeRegistry) (now suspectTimeout deadTimeout : Int)
    (id : NodeID) :
    (reg.updateLiveness now suspectTimeout deadTimeout).2.nodes.lookup id = reg.nodes.lookup id ∨
    (reg.updateLiveness now suspectTimeout deadTimeout).2.nodes.lookup id =
      (reg.nodes.lookup id).map (rescan now suspectTimeout deadTimeout) := by
  simp only [updateLiveness]
  split
  · exact .inl rfl
  · rw [scan_lookup]
    split
    · exact .inr rfl
    · exact .inl rfl

theorem ValidEntry.rescan {id : NodeID} {stored : StoredNode} (h : ValidEntry id stored)
    (now suspectTimeout deadTimeout : Int) :
    ValidEntry id (rescan now suspectTimeout deadTimeout stored) := by
  simp only [NodeRegistry.rescan]
  split
  · exact h
  · exact ⟨h.keyed, h.notNil, h.endpoint, h.incarnation, h.synced⟩

theorem WellFormed.updateLiveness {reg : NodeRegistry} (h : WellFormed reg)
    (now suspectTimeout deadTimeout : Int) :
    WellFormed (reg.updateLiveness now suspectTimeout deadTimeout).2 := by
  have horder : (reg.updateLiveness now suspectTimeout deadTimeout).2.registrationOrder =
      reg.registrationOrder := by
    simp only [NodeRegistry.updateLiveness]
    split <;> rfl
  constructor
  · intro id stored hl
    obtain he | he := updateLiveness_lookup reg now suspectTimeout deadTimeout id
    · rw [he] at hl
      exact h.entries id stored hl
    · rw [he] at hl
      obtain ⟨old, hold, rfl⟩ := Option.map_eq_some_iff.mp hl
      exact (h.entries id old hold).rescan now suspectTimeout deadTimeout
  · intro id
    rw [horder, h.listed id]
    obtain he | he := updateLiveness_lookup reg now suspectTimeout deadTimeout id
    · rw [he]
    · simp [he]
  · rw [horder]
    exact h.once

/-- No scan touches a pool. -/
@[simp] theorem updateLiveness_poolOf (reg : NodeRegistry)
    (now suspectTimeout deadTimeout : Int) (id : NodeID) :
    (reg.updateLiveness now suspectTimeout deadTimeout).2.poolOf id = reg.poolOf id := by
  obtain he | he := updateLiveness_lookup reg now suspectTimeout deadTimeout id
  · simp [poolOf, he]
  · simp only [poolOf, he, Option.map_map]
    cases reg.nodes.lookup id with
    | none => rfl
    | some stored =>
      simp only [Option.map_some, Function.comp_apply, rescan]
      split <;> rfl

/-- A scan keeps every lifetime registered; one that is dead was dead before or is announced. -/
theorem updateLiveness_stateOf {reg : NodeRegistry} (h : WellFormed reg)
    (now suspectTimeout deadTimeout : Int) {id : NodeID} {i : Nat} {state : NodeState}
    (hs : reg.stateOf id = some (i, state)) : ∃ state',
    (reg.updateLiveness now suspectTimeout deadTimeout).2.stateOf id = some (i, state') ∧
    (state = .dead → state' = .dead) ∧
    (state' = .dead → state = .dead ∨
      ⟨id, i⟩ ∈ (reg.updateLiveness now suspectTimeout deadTimeout).1) := by
  obtain ⟨stored, hl, he⟩ := Option.map_eq_some_iff.mp hs
  cases he
  have hin : id ∈ reg.registrationOrder := (h.listed id).mpr ⟨stored, hl⟩
  simp only [updateLiveness]
  split_ifs with hbad
  · exact ⟨stored.record.state, hs, fun hd => hd, fun hd => .inl hd⟩
  · refine ⟨(rescan now suspectTimeout deadTimeout stored).record.state, ?_, ?_, ?_⟩
    · simp only [stateOf, scan_lookup, hin, if_true, hl, Option.map_some, rescan]
      split <;> rfl
    · intro hd
      simp [rescan, hd]
    · intro hd
      by_cases hold : stored.record.state = .dead
      · exact .inl hold
      · right
        rw [scan_announced _ _ _ _ _ h.once]
        apply List.mem_filterMap.mpr
        refine ⟨id, hin, ?_⟩
        have hc : classify now suspectTimeout deadTimeout stored.record = .dead := by
          simpa [rescan, hold] using hd
        simp [hl, newlyDead, hold, hc, (h.entries id stored hl).keyed]

/-! ## RemoveNode -/

theorem removeNode_cases (reg : NodeRegistry) (nodeId : NodeID) (incarnation : Nat) :
    (reg.removeNode nodeId incarnation).2 = reg ∨
    reg.lifetimeOf nodeId = some incarnation ∧
      (reg.removeNode nodeId incarnation).2 =
        ⟨reg.nodes.erase nodeId, reg.registrationOrder.filter (fun id => id ≠ nodeId)⟩ := by
  simp only [removeNode]
  cases hl : reg.nodes.lookup nodeId with
  | none => exact .inl rfl
  | some stored =>
    by_cases hne : stored.record.incarnation ≠ incarnation
    · exact .inl (by simp [hne])
    · simp only [if_neg hne]
      exact .inr ⟨by simpa [lifetimeOf, hl] using hne, trivial⟩

theorem WellFormed.removeNode {reg : NodeRegistry} (h : WellFormed reg) (nodeId : NodeID)
    (incarnation : Nat) : WellFormed (reg.removeNode nodeId incarnation).2 := by
  obtain he | ⟨-, he⟩ := removeNode_cases reg nodeId incarnation
  · rw [he]
    exact h
  · rw [he]
    constructor
    · intro id stored hl
      rw [UnorderedMap.lookup_erase_eq] at hl
      split at hl
      · cases hl
      · exact h.entries id stored hl
    · intro id
      rw [List.mem_filter, h.listed id, UnorderedMap.lookup_erase_eq]
      by_cases hk : id = nodeId <;> simp [hk]
    · exact h.once.filter _

theorem removeNode_poolOf (reg : NodeRegistry) (nodeId : NodeID) (incarnation : Nat) :
    (reg.removeNode nodeId incarnation).2 = reg ∨
    reg.lifetimeOf nodeId = some incarnation ∧
    ∀ id, (reg.removeNode nodeId incarnation).2.poolOf id =
      if id = nodeId then none else reg.poolOf id := by
  obtain he | ⟨hinc, he⟩ := removeNode_cases reg nodeId incarnation
  · exact .inl he
  · refine .inr ⟨hinc, ?_⟩
    intro id
    rw [he]
    simp only [poolOf, UnorderedMap.lookup_erase_eq]
    split <;> rfl

theorem removeNode_stateOf (reg : NodeRegistry) (nodeId : NodeID) (incarnation : Nat) :
    (reg.removeNode nodeId incarnation).2 = reg ∨
    reg.lifetimeOf nodeId = some incarnation ∧
    ∀ id, (reg.removeNode nodeId incarnation).2.stateOf id =
      if id = nodeId then none else reg.stateOf id := by
  obtain he | ⟨hinc, he⟩ := removeNode_cases reg nodeId incarnation
  · exact .inl he
  · refine .inr ⟨hinc, ?_⟩
    intro id
    rw [he]
    simp only [stateOf, UnorderedMap.lookup_erase_eq]
    split <;> rfl

/-! ## ReserveFirstFit -/

/-- The registry with another pool for one of its nodes. -/
def putPool (reg : NodeRegistry) (id : NodeID) (stored : StoredNode) (pool : ResourcePool) :
    NodeRegistry :=
  { reg with nodes := reg.nodes.insert id (StoredNode.withPool stored pool) }

theorem putPool_poolOf (reg : NodeRegistry) (id : NodeID) (stored : StoredNode)
    (pool : ResourcePool) (id' : NodeID) : (reg.putPool id stored pool).poolOf id' =
      if id' = id then some (stored.record.incarnation, pool) else reg.poolOf id' := by
  simp only [poolOf, putPool, UnorderedMap.lookup_insert_eq]
  split <;> rfl

theorem putPool_stateOf {reg : NodeRegistry} {id : NodeID} {stored : StoredNode}
    (hl : reg.nodes.lookup id = some stored) (pool : ResourcePool) (id' : NodeID) :
    (reg.putPool id stored pool).stateOf id' = reg.stateOf id' := by
  simp only [stateOf, putPool, UnorderedMap.lookup_insert_eq]
  by_cases hk : id' = id
  · subst hk
    simp [hl, StoredNode.withPool]
  · simp [hk]

theorem WellFormed.putPool {reg : NodeRegistry} (h : WellFormed reg) {id : NodeID}
    {stored : StoredNode} (hl : reg.nodes.lookup id = some stored) (pool : ResourcePool) :
    WellFormed (reg.putPool id stored pool) := by
  have hv := h.entries id stored hl
  exact h.replace hl ⟨hv.keyed, hv.notNil, hv.endpoint, hv.incarnation, rfl⟩

/-- The node stored under the NodeID passes the tests of the loop of `ReserveFirstFit`. -/
def fits (request : ResourceRequest) (nodes : UnorderedMap NodeID StoredNode) (id : NodeID) :
    Prop :=
  ∃ stored, nodes.lookup id = some stored ∧ stored.record.state = .alive ∧
    stored.schedulablePool.canFit request = true

/-- The loop stops at the first node that fits and acquires the request there. -/
theorem reserveFrom_first (request : ResourceRequest) (order : List NodeID)
    (nodes : UnorderedMap NodeID StoredNode) :
    (∀ id ∈ order, ¬ fits request nodes id) ∧ reserveFrom request order nodes =
      (.ResourceExhausted "no schedulable node can satisfy resource request", none, nodes) ∨
    ∃ before id after stored, order = before ++ id :: after ∧
      (∀ k ∈ before, ¬ fits request nodes k) ∧ nodes.lookup id = some stored ∧
      stored.record.state = .alive ∧ stored.schedulablePool.canFit request = true ∧
      reserveFrom request order nodes =
        (.OK, some (StoredNode.withPool stored (stored.schedulablePool.acquire request).2).record,
          nodes.insert id
            (StoredNode.withPool stored (stored.schedulablePool.acquire request).2)) := by
  induction order with
  | nil => exact .inl ⟨by simp, rfl⟩
  | cons k rest ih =>
    by_cases hk : fits request nodes k
    · right
      obtain ⟨stored, hl, halive, hfit⟩ := hk
      refine ⟨[], k, rest, stored, rfl, by simp, hl, halive, hfit, ?_⟩
      simp [reserveFrom, hl, halive, hfit, (ResourcePool.acquire_fits hfit).1]
    · -- the node is passed over
      have hskip : reserveFrom request (k :: rest) nodes = reserveFrom request rest nodes := by
        cases hl : nodes.lookup k with
        | none => simp [reserveFrom, hl]
        | some stored =>
          by_cases halive : stored.record.state = .alive
          · cases hfit : stored.schedulablePool.canFit request with
            | true => exact absurd ⟨stored, hl, halive, hfit⟩ hk
            | false => simp [reserveFrom, hl, halive, hfit]
          · simp [reserveFrom, hl, halive]
      rw [hskip]
      obtain ⟨hnone, he⟩ | ⟨before, id, after, stored, rfl, hbefore, h⟩ := ih
      · exact .inl ⟨List.forall_mem_cons.mpr ⟨hk, hnone⟩, he⟩
      · exact .inr ⟨k :: before, id, after, stored, rfl,
          List.forall_mem_cons.mpr ⟨hk, hbefore⟩, h⟩

/-- `ReserveFirstFit` either leaves the registry as it is, or acquires the request on an alive
node that fits it and returns that node's record; its `Internal` return is unreachable. -/
theorem reserveFirstFit_cases (reg : NodeRegistry) (request : ResourceRequest) :
    reg.reserveFirstFit request =
      (.ResourceExhausted "no schedulable node can satisfy resource request", none, reg) ∨
    ∃ id stored, reg.nodes.lookup id = some stored ∧ stored.record.state = .alive ∧
      stored.schedulablePool.canFit request = true ∧
      reg.reserveFirstFit request =
        (.OK, some (StoredNode.withPool stored (stored.schedulablePool.acquire request).2).record,
          reg.putPool id stored (stored.schedulablePool.acquire request).2) := by
  simp only [reserveFirstFit]
  obtain ⟨-, he⟩ | ⟨_, id, _, stored, -, -, hl, halive, hfit, he⟩ :=
    reserveFrom_first request reg.registrationOrder reg.nodes
  · left
    rw [he]
  · right
    exact ⟨id, stored, hl, halive, hfit, by rw [he]; rfl⟩

/-! ## Release -/

/-- `Release` either refuses and leaves the registry as it is, or gives the request back to the
pool that is registered under the NodeID now. -/
theorem release_cases (reg : NodeRegistry) (nodeId : NodeID) (request : ResourceRequest) :
    (reg.release nodeId request).1.ok = false ∧ (reg.release nodeId request).2 = reg ∧
      (∀ stored, reg.nodes.lookup nodeId = some stored →
        stored.schedulablePool.canRelease request = false) ∨
    ∃ stored, reg.nodes.lookup nodeId = some stored ∧
      stored.schedulablePool.canRelease request = true ∧
      reg.release nodeId request =
        (.OK, reg.putPool nodeId stored (stored.schedulablePool.release request).2) := by
  simp only [release]
  cases hl : reg.nodes.lookup nodeId with
  | none => exact .inl ⟨rfl, rfl, by simp⟩
  | some stored =>
    cases hfit : stored.schedulablePool.canRelease request with
    | true =>
      right
      refine ⟨stored, rfl, hfit, ?_⟩
      simp [(ResourcePool.release_fits hfit).1, putPool]
    | false =>
      left
      simp only [ResourcePool.release_refused hfit, Status.ok_FailedPrecondition,
        Bool.false_eq_true, if_false]
      refine ⟨trivial, ?_, ?_⟩
      · rw [show ({ stored with schedulablePool := stored.schedulablePool } : StoredNode) = stored
          from rfl, insert_lookup_self hl]
      · rintro stored' ⟨⟩
        exact hfit

/-- `Release` succeeds where the pool has as much in use. -/
theorem release_ok {reg : NodeRegistry} {nodeId : NodeID} {request : ResourceRequest}
    (h : ((reg.poolOf nodeId).any fun registered => registered.2.canRelease request) = true) :
    (reg.release nodeId request).1.ok = true := by
  rw [Option.any_eq_true] at h
  obtain ⟨⟨i, pool⟩, hpool, hfit⟩ := h
  obtain ⟨stored, hl, -, rfl⟩ := lookup_of_poolOf hpool
  obtain ⟨-, -, hno⟩ | ⟨_, -, -, he⟩ := release_cases reg nodeId request
  · rw [hno stored hl] at hfit
    cases hfit
  · rw [he]
    rfl

/-- A refused release changes nothing. -/
theorem release_refused {reg : NodeRegistry} {nodeId : NodeID} {request : ResourceRequest}
    (h : (reg.release nodeId request).1.ok = false) : (reg.release nodeId request).2 = reg := by
  obtain ⟨-, he, -⟩ | ⟨stored, -, -, he⟩ := release_cases reg nodeId request
  · exact he
  · rw [he] at h
    cases h

theorem WellFormed.release {reg : NodeRegistry} (h : WellFormed reg) (nodeId : NodeID)
    (request : ResourceRequest) : WellFormed (reg.release nodeId request).2 := by
  obtain ⟨-, he, -⟩ | ⟨stored, hl, -, he⟩ := release_cases reg nodeId request
  · rw [he]
    exact h
  · rw [he]
    exact h.putPool hl _

@[simp] theorem release_stateOf (reg : NodeRegistry) (nodeId : NodeID) (request : ResourceRequest)
    (id : NodeID) : (reg.release nodeId request).2.stateOf id = reg.stateOf id := by
  obtain ⟨-, he, -⟩ | ⟨stored, hl, -, he⟩ := release_cases reg nodeId request
  · rw [he]
  · rw [he]
    exact putPool_stateOf hl _ id

theorem WellFormed.reserveFirstFit {reg : NodeRegistry} (h : WellFormed reg)
    (request : ResourceRequest) : WellFormed (reg.reserveFirstFit request).2.2 := by
  obtain he | ⟨id, stored, hl, -, -, he⟩ := reserveFirstFit_cases reg request
  · rw [he]
    exact h
  · rw [he]
    exact h.putPool hl _

end NodeRegistry

end AgentRuntime
