import AgentRuntime.Library.Run
import AgentRuntime.Node.NodeLifetimes

/-!
# Runs of registry calls

Registrations, heartbeats and removals arrive in any order, duplicated and
late, between scans, reservations and releases. Each call is one section under
the registry's mutex, so a history is a list of calls. The state carries, next
to the registry, what the history has accepted and announced so far.
-/
namespace AgentRuntime

namespace NodeRegistry

inductive Call where
  | registerNode (node : NodeRecord) (now : Int)
  | heartbeat (nodeId : NodeID) (incarnation : Nat) (reportedAvailable : ResourceSet)
      (runningTasks : Nat) (now : Int)
  | updateLiveness (now suspectTimeout deadTimeout : Int)
  | removeNode (nodeId : NodeID) (incarnation : Nat)
  | reserveFirstFit (request : ResourceRequest)
  | release (nodeId : NodeID) (request : ResourceRequest)

namespace Call

/-- The lifetime that a message from or about a worker names. -/
def message : Call → Option (NodeID × Nat)
  | registerNode node _ => some (node.nodeId, node.incarnation)
  | heartbeat nodeId incarnation _ _ _ => some (nodeId, incarnation)
  | removeNode nodeId incarnation => some (nodeId, incarnation)
  | _ => none

/-- The status the call returns and the registry it leaves. -/
def reply (reg : NodeRegistry) : Call → Status × NodeRegistry
  | registerNode node now => reg.registerNode node now
  | heartbeat nodeId incarnation reported running now =>
    reg.heartbeat nodeId incarnation reported running now
  | updateLiveness now suspect dead => (.OK, (reg.updateLiveness now suspect dead).2)
  | removeNode nodeId incarnation => reg.removeNode nodeId incarnation
  | reserveFirstFit request =>
    ((reg.reserveFirstFit request).1, (reg.reserveFirstFit request).2.2)
  | release nodeId request => reg.release nodeId request

/-- The vector `UpdateLiveness` returns. -/
def announces (reg : NodeRegistry) : Call → List DeadNodeLifetime
  | updateLiveness now suspect dead => (reg.updateLiveness now suspect dead).1
  | _ => []

/-- The node `ReserveFirstFit` selects. -/
def selects (reg : NodeRegistry) : Call → Option NodeRecord
  | reserveFirstFit request => (reg.reserveFirstFit request).2.1
  | _ => none

end Call

/-- The registry that a list of calls leaves, from the empty one. -/
def registryAfter (calls : List Call) : NodeRegistry :=
  calls.foldl (fun reg c => (c.reply reg).2) empty

@[simp] theorem registryAfter_nil : registryAfter [] = empty := rfl
@[simp] theorem registryAfter_concat (calls : List Call) (c : Call) :
    registryAfter (calls ++ [c]) = (c.reply (registryAfter calls)).2 := by
  simp [registryAfter]

structure History where
  registry : NodeRegistry
  /-- The largest incarnation accepted so far under each NodeID; 0 when there is none. -/
  highest : NodeID → Nat
  /-- The vectors of all scans so far, one after the other. -/
  announced : List DeadNodeLifetime

namespace History

def initial : History := ⟨NodeRegistry.empty, fun _ => 0, []⟩

/-- A message that returns OK is accepted. -/
def raise (highest : NodeID → Nat) : Option (NodeID × Nat) → NodeID → Nat
  | none, id => highest id
  | some (nodeId, incarnation), id =>
    if id = nodeId then max (highest id) incarnation else highest id

def step (s : History) (c : Call) : Option History := some
  { registry := (c.reply s.registry).2
    highest := if (c.reply s.registry).1.ok then raise s.highest c.message else s.highest
    announced := s.announced ++ c.announces s.registry }

theorem run_total (calls : List Call) (s : History) : ∃ t, Run.run step calls s = some t :=
  Run.run_total (fun _ _ => ⟨_, rfl⟩) calls s

end History

/-! ## What a call does to the lifetimes -/

theorem stateOf_of_lookup {reg : NodeRegistry} {id : NodeID} {stored : StoredNode}
    (h : reg.nodes.lookup id = some stored) :
    reg.stateOf id = some (stored.record.incarnation, stored.record.state) := by
  simp [stateOf, h]

/-- `RegisterNode` returns OK for a duplicate, which changes nothing, or to start a lifetime. -/
theorem registerNode_reply (reg : NodeRegistry) (node : NodeRecord) (now : Int) :
    (¬ startsLifetime reg node ∧ (reg.registerNode node now).2 = reg ∧
      ((reg.registerNode node now).1.ok = true →
        reg.lifetimeOf node.nodeId = some node.incarnation)) ∨
    startsLifetime reg node ∧ (reg.registerNode node now).1.ok = true ∧
      ∀ id, (reg.registerNode node now).2.stateOf id =
        if id = node.nodeId then some (node.incarnation, node.state) else reg.stateOf id := by
  simp only [registerNode]
  by_cases hnil : node.nodeId.isNil = true
  · simp [hnil, startsLifetime, acceptsRecord]
  by_cases hend : node.workerEndpoint.isEmpty = true
  · simp [hnil, hend, startsLifetime, acceptsRecord]
  by_cases hinc : node.incarnation = 0
  · simp [hnil, hend, hinc, startsLifetime, acceptsRecord]
  have haccepts : acceptsRecord node := ⟨by simpa using hnil, by simpa using hend, by omega⟩
  simp only [hnil, hend, hinc, if_false, Bool.false_eq_true]
  cases hl : reg.nodes.lookup node.nodeId with
  | none =>
    right
    refine ⟨⟨haccepts, by simp [lifetimeOf, hl]⟩, rfl, ?_⟩
    intro id
    simp only [stateOf, UnorderedMap.lookup_insert_eq]
    split <;> rfl
  | some stored =>
    have hregistered : reg.lifetimeOf node.nodeId = some stored.record.incarnation := by
      simp [lifetimeOf, hl]
    simp only [startsLifetime, hregistered, Option.some.injEq]
    by_cases hlt : node.incarnation < stored.record.incarnation
    · left
      simp only [hlt, if_true]
      refine ⟨fun h => ?_, trivial, by simp⟩
      have := h.2 _ rfl
      omega
    simp only [hlt, if_false]
    by_cases heq : node.incarnation = stored.record.incarnation
    · left
      rw [if_pos heq]
      refine ⟨fun h => ?_, by split <;> rfl, fun _ => heq.symm⟩
      have := h.2 _ rfl
      omega
    · right
      rw [if_neg heq]
      refine ⟨⟨haccepts, by rintro i rfl; omega⟩, rfl, ?_⟩
      intro id
      simp only [stateOf, UnorderedMap.lookup_insert_eq]
      split <;> rfl

/-- A heartbeat or a removal that returns OK names the lifetime that is registered. -/
theorem heartbeat_reply (reg : NodeRegistry) (nodeId : NodeID) (incarnation : Nat)
    (reported : ResourceSet) (running : Nat) (now : Int) :
    (reg.heartbeat nodeId incarnation reported running now).1.ok = false ∧
      (reg.heartbeat nodeId incarnation reported running now).2 = reg ∨
    reg.lifetimeOf nodeId = some incarnation := by
  simp only [heartbeat]
  split_ifs with hnil hinc
  · exact .inl ⟨rfl, rfl⟩
  · exact .inl ⟨rfl, rfl⟩
  cases hl : reg.nodes.lookup nodeId with
  | none => exact .inl ⟨rfl, rfl⟩
  | some stored =>
    by_cases hne : stored.record.incarnation ≠ incarnation
    · left
      simp [hne]
    · right
      simpa [lifetimeOf, hl] using hne

theorem removeNode_reply (reg : NodeRegistry) (nodeId : NodeID) (incarnation : Nat) :
    (reg.removeNode nodeId incarnation).1.ok = false ∧
      (reg.removeNode nodeId incarnation).2 = reg ∨
    reg.lifetimeOf nodeId = some incarnation := by
  simp only [removeNode]
  cases hl : reg.nodes.lookup nodeId with
  | none => exact .inl ⟨rfl, rfl⟩
  | some stored =>
    by_cases hne : stored.record.incarnation ≠ incarnation
    · left
      simp [hne]
    · right
      simpa [lifetimeOf, hl] using hne

/-- A message is refused and changes nothing, or it names the registered lifetime, or it is a
registration that starts one. -/
theorem Call.reply_message (reg : NodeRegistry) {c : Call} {id : NodeID} {i : Nat}
    (h : c.message = some (id, i)) :
    (c.reply reg).1.ok = false ∧ (c.reply reg).2 = reg ∨ reg.lifetimeOf id = some i ∨
    ∃ node now, c = .registerNode node now ∧ startsLifetime reg node ∧
      (c.reply reg).1.ok = true := by
  cases c with
  | registerNode node now =>
    cases h
    obtain ⟨-, hreg, hok⟩ | ⟨hstarts, hok, -⟩ := registerNode_reply reg node now
    · cases hs : (reg.registerNode node now).1.ok with
      | false => exact .inl ⟨hs, hreg⟩
      | true => exact .inr (.inl (hok hs))
    · exact .inr (.inr ⟨node, now, rfl, hstarts, hok⟩)
  | heartbeat nodeId incarnation reported running now =>
    cases h
    exact (heartbeat_reply reg id i reported running now).imp (fun h => h) .inl
  | removeNode nodeId incarnation =>
    cases h
    exact (removeNode_reply reg id i).imp (fun h => h) .inl
  | updateLiveness | reserveFirstFit | release => cases h

theorem Call.wellFormed {reg : NodeRegistry} (h : WellFormed reg) (c : Call) :
    WellFormed (c.reply reg).2 := by
  cases c with
  | registerNode node now => exact h.registerNode node now
  | heartbeat nodeId incarnation reported running now =>
    exact h.heartbeat nodeId incarnation reported running now
  | updateLiveness now suspect dead => exact h.updateLiveness now suspect dead
  | removeNode nodeId incarnation => exact h.removeNode nodeId incarnation
  | reserveFirstFit request => exact h.reserveFirstFit request
  | release nodeId request => exact h.release nodeId request

theorem wellFormed_registryAfter (calls : List Call) : WellFormed (registryAfter calls) := by
  induction calls using List.reverseRecOn with
  | nil => exact wellFormed_empty
  | append_singleton calls c ih =>
    rw [registryAfter_concat]
    exact Call.wellFormed ih c

theorem reserveFirstFit_stateOf (reg : NodeRegistry) (request : ResourceRequest) (id : NodeID) :
    (reg.reserveFirstFit request).2.2.stateOf id = reg.stateOf id := by
  obtain he | ⟨k, stored, hl, -, -, he⟩ := reserveFirstFit_cases reg request
  · rw [he]
  · rw [he]
    exact putPool_stateOf hl _ id

/-- The node selected is registered and alive. -/
theorem reserveFirstFit_selects {reg : NodeRegistry} (h : WellFormed reg)
    {request : ResourceRequest} {node : NodeRecord}
    (hnode : (reg.reserveFirstFit request).2.1 = some node) :
    reg.stateOf node.nodeId = some (node.incarnation, .alive) := by
  obtain he | ⟨k, stored, hl, halive, -, he⟩ := reserveFirstFit_cases reg request
  · rw [he] at hnode
    cases hnode
  · rw [he] at hnode
    cases hnode
    simp only [StoredNode.withPool]
    rw [(h.entries k stored hl).keyed, stateOf_of_lookup hl, halive]

/-- A scan announces each lifetime it kills once. -/
theorem updateLiveness_announces {reg : NodeRegistry} (h : WellFormed reg)
    (now suspect dead : Int) :
    (reg.updateLiveness now suspect dead).1.Nodup ∧
    ∀ id i, ⟨id, i⟩ ∈ (reg.updateLiveness now suspect dead).1 →
      (∃ state, reg.stateOf id = some (i, state) ∧ state ≠ .dead) ∧
      (reg.updateLiveness now suspect dead).2.stateOf id = some (i, .dead) := by
  simp only [updateLiveness]
  split_ifs with hbad
  · exact ⟨.nil, by simp⟩
  rw [scan_announced _ _ _ _ _ h.once]
  -- an entry is announced under its own key
  have hentry : ∀ k l, l ∈ ((reg.nodes.lookup k).bind fun stored =>
      if newlyDead now suspect dead stored then
        some (⟨stored.record.nodeId, stored.record.incarnation⟩ : DeadNodeLifetime)
      else none) → ∃ stored, reg.nodes.lookup k = some stored ∧
        newlyDead now suspect dead stored = true ∧ l = ⟨k, stored.record.incarnation⟩ := by
    intro k l hl
    obtain ⟨stored, hstored, hl⟩ := Option.bind_eq_some_iff.mp hl
    split at hl
    · rename_i hdead
      cases hl
      exact ⟨stored, hstored, hdead, by rw [(h.entries k stored hstored).keyed]⟩
    · cases hl
  constructor
  · apply h.once.filterMap
    intro k k' l hk hk'
    obtain ⟨stored, -, -, rfl⟩ := hentry k l hk
    obtain ⟨stored', -, -, he⟩ := hentry k' _ hk'
    exact congrArg DeadNodeLifetime.nodeId he
  · intro id i hmem
    obtain ⟨k, hk, hl⟩ := List.mem_filterMap.mp hmem
    obtain ⟨stored, hstored, hdead, he⟩ := hentry k _ hl
    cases he
    simp only [newlyDead, Bool.and_eq_true, decide_eq_true_eq] at hdead
    refine ⟨⟨stored.record.state, stateOf_of_lookup hstored, hdead.1⟩, ?_⟩
    simp [stateOf, scan_lookup, hk, hstored, rescan, hdead.1, hdead.2]

/-- What one call can do to the lifetime registered under a NodeID. -/
inductive LifetimeMove (reg : NodeRegistry) (c : Call) (id : NodeID) (reg' : NodeRegistry) :
    Prop where
  | kept (same : reg'.stateOf id = reg.stateOf id)
  | started (node : NodeRecord) (now : Int) (call : c = .registerNode node now)
      (key : node.nodeId = id) (starts : startsLifetime reg node)
      (after : reg'.stateOf id = some (node.incarnation, node.state))
  | removed (i : Nat) (before : reg.lifetimeOf id = some i) (call : c = .removeNode id i)
      (after : reg'.stateOf id = none)
  | judged (i : Nat) (state state' : NodeState) (before : reg.stateOf id = some (i, state))
      (after : reg'.stateOf id = some (i, state')) (final : state = .dead → state' = .dead)
      (dies : state' = .dead → state = .dead ∨ ⟨id, i⟩ ∈ c.announces reg)

theorem Call.lifetimeMove {reg : NodeRegistry} (h : WellFormed reg) (c : Call) (id : NodeID) :
    LifetimeMove reg c id (c.reply reg).2 := by
  cases c with
  | registerNode node now =>
    obtain ⟨-, hreg, -⟩ | ⟨hstarts, -, hstates⟩ := registerNode_reply reg node now
    · exact .kept (by rw [Call.reply, hreg])
    by_cases hid : node.nodeId = id
    · subst hid
      exact .started node now rfl rfl hstarts (by simp [Call.reply, hstates])
    · exact .kept (by simp [Call.reply, hstates, Ne.symm hid])
  | heartbeat nodeId incarnation reported running now =>
    obtain he | ⟨state, hstate, hlive, hafter⟩ :=
      heartbeat_stateOf reg nodeId incarnation reported running now id
    · exact .kept he
    · exact .judged incarnation state .alive hstate hafter (fun hd => absurd hd hlive)
        (fun hd => by cases hd)
  | updateLiveness now suspect dead =>
    cases hs : reg.stateOf id with
    | none =>
      refine .kept ?_
      have hnone : reg.nodes.lookup id = none := by simpa [stateOf] using hs
      obtain he | he := updateLiveness_lookup reg now suspect dead id <;>
        simp [Call.reply, stateOf, he, hnone]
    | some entry =>
      obtain ⟨i, state⟩ := entry
      obtain ⟨state', hafter, hfinal, hdies⟩ := updateLiveness_stateOf h now suspect dead hs
      exact .judged i state state' hs hafter hfinal hdies
  | removeNode nodeId incarnation =>
    obtain he | ⟨hinc, hstates⟩ := removeNode_stateOf reg nodeId incarnation
    · exact .kept (by rw [Call.reply, he])
    by_cases hid : id = nodeId
    · subst hid
      exact .removed incarnation hinc rfl (by simp [Call.reply, hstates])
    · exact .kept (by simp [Call.reply, hstates, hid])
  | reserveFirstFit request => exact .kept (reserveFirstFit_stateOf reg request id)
  | release nodeId request => exact .kept (release_stateOf reg nodeId request id)

namespace Sample

def nodeId : NodeID := .ofByte 1

/-- A worker with two CPUs registers under the given incarnation. -/
def register (incarnation : Nat) : Call :=
  .registerNode
    { nodeId := nodeId
      workerEndpoint := "worker:1"
      totalResources := AgentRuntime.Sample.cpu AgentRuntime.Sample.twoCpus
      reportedAvailable := AgentRuntime.Sample.cpu AgentRuntime.Sample.twoCpus
      schedulableAvailable := .empty
      incarnation := incarnation
      state := .alive
      runningTasks := 0
      lastHeartbeatReceived := 0 } 0

end Sample

end NodeRegistry

end AgentRuntime
