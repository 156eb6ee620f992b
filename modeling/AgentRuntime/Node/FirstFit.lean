import AgentRuntime.Node.RegistryHistory

/-!
# First fit over the registration order

`ReserveFirstFit` walks an order that is kept apart from the table of nodes.
The order is shown to be the order in which the registered nodes have joined:
a restart keeps the place of a node, and a removal gives it up.
-/
namespace AgentRuntime

namespace NodeRegistry

/-! ## When a node has joined -/

def Registered (reg : NodeRegistry) (id : NodeID) : Prop :=
  ∃ stored, reg.nodes.lookup id = some stored

/-- The node was not registered before the call of this index, and has been ever since. -/
structure JoinedAt (calls : List Call) (id : NodeID) (n : Nat) : Prop where
  called : n < calls.length
  absent : ¬ Registered (registryAfter (calls.take n)) id
  since : ∀ k, n < k → k ≤ calls.length → Registered (registryAfter (calls.take k)) id

variable {calls : List Call} {c : Call} {id : NodeID}

theorem JoinedAt.unique {m n : Nat} (hm : JoinedAt calls id m) (hn : JoinedAt calls id n) :
    m = n := by
  rcases lt_trichotomy m n with hlt | rfl | hlt
  · exact absurd (hm.since n hlt hn.called.le) hn.absent
  · rfl
  · exact absurd (hn.since m hlt hm.called.le) hm.absent

/-- A call that leaves the node registered does not change when it joined. -/
theorem joinedAt_kept (hbefore : Registered (registryAfter calls) id)
    (hafter : Registered (registryAfter (calls ++ [c])) id) (n : Nat) :
    JoinedAt (calls ++ [c]) id n ↔ JoinedAt calls id n := by
  have htake : ∀ k, k ≤ calls.length → (calls ++ [c]).take k = calls.take k := fun k hk =>
    List.take_append_of_le_length hk
  constructor
  · intro h
    have hcalled := h.called
    rw [List.length_append, List.length_singleton] at hcalled
    have hn : n < calls.length := by
      by_contra hge
      obtain rfl : n = calls.length := by omega
      apply h.absent
      rw [htake _ le_rfl, List.take_length]
      exact hbefore
    constructor
    · exact hn
    · rw [← htake n hn.le]
      exact h.absent
    · intro k hk hle
      rw [← htake k hle]
      exact h.since k hk (by rw [List.length_append]; omega)
  · intro h
    constructor
    · rw [List.length_append]
      exact Nat.lt_add_right _ h.called
    · rw [htake n h.called.le]
      exact h.absent
    · intro k hk hle
      rw [List.length_append, List.length_singleton] at hle
      by_cases hlast : k ≤ calls.length
      · rw [htake k hlast]
        exact h.since k hk hlast
      · rw [List.take_of_length_le (by rw [List.length_append, List.length_singleton]; omega)]
        exact hafter

/-- The call that registers a node that was not there is the one by which it joins. -/
theorem joinedAt_new (hbefore : ¬ Registered (registryAfter calls) id)
    (hafter : Registered (registryAfter (calls ++ [c])) id) (n : Nat) :
    JoinedAt (calls ++ [c]) id n ↔ n = calls.length := by
  constructor
  · intro h
    have hcalled := h.called
    rw [List.length_append, List.length_singleton] at hcalled
    by_contra hne
    apply hbefore
    have hlast := h.since calls.length (by omega) (by rw [List.length_append]; omega)
    rw [List.take_append_of_le_length le_rfl, List.take_length] at hlast
    exact hlast
  · rintro rfl
    constructor
    · rw [List.length_append, List.length_singleton]
      omega
    · rw [List.take_append_of_le_length le_rfl, List.take_length]
      exact hbefore
    · intro k hk hle
      rw [List.take_of_length_le (by rw [List.length_append, List.length_singleton]; omega)]
      exact hafter

/-! ## The order of registration -/

/-- A call can only drop a node from the order, or put one that was not registered at its end. -/
theorem Call.order (reg : NodeRegistry) (c : Call) :
    (c.reply reg).2.registrationOrder.Sublist reg.registrationOrder ∨
    ∃ id, ¬ Registered reg id ∧
      (c.reply reg).2.registrationOrder = reg.registrationOrder ++ [id] := by
  cases c with
  | registerNode node now =>
    simp only [Call.reply]
    obtain he | ⟨-, -, ⟨hl, he⟩ | ⟨stored, -, -, he⟩⟩ := registerNode_cases reg node now
    · rw [he]
      exact .inl (List.Sublist.refl _)
    · rw [he]
      refine .inr ⟨node.nodeId, ?_, rfl⟩
      rintro ⟨stored, hstored⟩
      rw [hl] at hstored
      cases hstored
    · rw [he]
      exact .inl (List.Sublist.refl _)
  | heartbeat nodeId incarnation reported running now =>
    left
    simp only [Call.reply]
    obtain he | ⟨stored, -, -, -, he⟩ := heartbeat_cases reg nodeId incarnation reported running now
      <;> rw [he]
  | updateLiveness now suspect dead =>
    left
    simp only [Call.reply, NodeRegistry.updateLiveness]
    split <;> exact List.Sublist.refl _
  | removeNode nodeId incarnation =>
    left
    simp only [Call.reply]
    obtain he | ⟨-, he⟩ := removeNode_cases reg nodeId incarnation
    · rw [he]
    · rw [he]
      exact List.filter_sublist
  | reserveFirstFit request => exact .inl (List.Sublist.refl _)
  | release nodeId request =>
    left
    simp only [Call.reply]
    obtain ⟨-, he, -⟩ | ⟨stored, -, -, he⟩ := release_cases reg nodeId request
    · rw [he]
    · rw [he]
      exact List.Sublist.refl _

/-- The nodes are listed in the order in which they joined. -/
structure InOrder (calls : List Call) : Prop where
  joined : ∀ id ∈ (registryAfter calls).registrationOrder, ∃ n, JoinedAt calls id n
  sorted : (registryAfter calls).registrationOrder.Pairwise fun a b =>
    ∀ m n, JoinedAt calls a m → JoinedAt calls b n → m < n

theorem inOrder_concat (h : InOrder calls) (c : Call) : InOrder (calls ++ [c]) := by
  have hlisted := (wellFormed_registryAfter calls).listed
  have hlisted' := (wellFormed_registryAfter (calls ++ [c])).listed
  have hmove := c.order (registryAfter calls)
  rw [← registryAfter_concat] at hmove
  obtain hsub | ⟨id, hnew, he⟩ := hmove
  · -- nobody has joined
    have hkept : ∀ a ∈ (registryAfter (calls ++ [c])).registrationOrder, ∀ n,
        JoinedAt (calls ++ [c]) a n ↔ JoinedAt calls a n := fun a ha =>
      joinedAt_kept ((hlisted a).mp (hsub.subset ha)) ((hlisted' a).mp ha)
    constructor
    · intro a ha
      obtain ⟨n, hn⟩ := h.joined a (hsub.subset ha)
      exact ⟨n, (hkept a ha n).mpr hn⟩
    · refine (h.sorted.sublist hsub).imp_of_mem ?_
      intro a b ha hb hab m n hm hn
      exact hab m n ((hkept a ha m).mp hm) ((hkept b hb n).mp hn)
  · have hkept : ∀ a ∈ (registryAfter calls).registrationOrder, ∀ n,
        JoinedAt (calls ++ [c]) a n ↔ JoinedAt calls a n := by
      intro a ha
      refine joinedAt_kept ((hlisted a).mp ha) ((hlisted' a).mp ?_)
      rw [he]
      exact List.mem_append_left _ ha
    have hlast : ∀ n, JoinedAt (calls ++ [c]) id n ↔ n = calls.length := by
      refine joinedAt_new hnew ((hlisted' id).mp ?_)
      rw [he]
      simp
    constructor
    · intro a ha
      rw [he, List.mem_append, List.mem_singleton] at ha
      rcases ha with ha | rfl
      · obtain ⟨n, hn⟩ := h.joined a ha
        exact ⟨n, (hkept a ha n).mpr hn⟩
      · exact ⟨calls.length, (hlast _).mpr rfl⟩
    · rw [he]
      refine List.pairwise_append.mpr ⟨?_, by simp, ?_⟩
      · refine h.sorted.imp_of_mem ?_
        intro a b ha hb hab m n hm hn
        exact hab m n ((hkept a ha m).mp hm) ((hkept b hb n).mp hn)
      · intro a ha b hb m n hm hn
        rw [List.mem_singleton.mp hb] at hn
        rw [(hlast n).mp hn]
        exact ((hkept a ha m).mp hm).called

theorem inOrder (calls : List Call) : InOrder calls := by
  induction calls using List.reverseRecOn with
  | nil => exact ⟨by simp [empty], by simp [empty]⟩
  | append_singleton calls c ih => exact inOrder_concat ih c

/-! ## The selection -/

/-- The node is alive, and its schedulable pool covers every requested resource. -/
def Eligible (reg : NodeRegistry) (request : ResourceRequest) (id : NodeID) : Prop :=
  ∃ stored, reg.nodes.lookup id = some stored ∧ stored.record.state = .alive ∧
    ∀ name, request.amount name ≤ stored.schedulablePool.available.amount name

theorem eligible_iff_fits (reg : NodeRegistry) (request : ResourceRequest) (id : NodeID) :
    Eligible reg request id ↔ fits request reg.nodes id := by
  simp only [Eligible, fits, ResourcePool.canFit_iff]

/-- What a reservation on the stored node does to the registry. -/
structure Reserves (reg : NodeRegistry) (request : ResourceRequest) (id : NodeID)
    (stored taken : StoredNode) (reg' : NodeRegistry) : Prop where
  before : reg.nodes.lookup id = some stored
  after : reg'.nodes.lookup id = some taken
  amounts : ∀ name, taken.schedulablePool.available.amount name =
    stored.schedulablePool.available.amount name - request.amount name
  total : taken.schedulablePool.total = stored.schedulablePool.total
  record : taken.record =
    { stored.record with schedulableAvailable := taken.schedulablePool.available }
  others : ∀ id', id' ≠ id → reg'.nodes.lookup id' = reg.nodes.lookup id'
  order : reg'.registrationOrder = reg.registrationOrder

theorem reserves_putPool {reg : NodeRegistry} {request : ResourceRequest} {stored : StoredNode}
    (hl : reg.nodes.lookup id = some stored)
    (hfit : stored.schedulablePool.canFit request = true) :
    Reserves reg request id stored
      (stored.withPool (stored.schedulablePool.acquire request).2)
      (reg.putPool id stored (stored.schedulablePool.acquire request).2) where
  before := hl
  after := by simp [putPool]
  amounts := (ResourcePool.acquire_fits hfit).2.2
  total := (ResourcePool.acquire_fits hfit).2.1
  record := rfl
  others := by
    intro id' hne
    simp [putPool, hne]
  order := rfl

/-- `ReserveFirstFit` takes the request from the eligible node that joined first, if any. -/
theorem first_fit_exact (calls : List Call) (request : ResourceRequest) :
    (((registryAfter calls).reserveFirstFit request).1.ok = true ↔
      ∃ id, Eligible (registryAfter calls) request id) ∧
    (((registryAfter calls).reserveFirstFit request).1.ok = true →
      ∃ id stored taken, Eligible (registryAfter calls) request id ∧
        (∀ id', Eligible (registryAfter calls) request id' → id' ≠ id →
          ∃ m n, JoinedAt calls id m ∧ JoinedAt calls id' n ∧ m < n) ∧
        Reserves (registryAfter calls) request id stored taken
          ((registryAfter calls).reserveFirstFit request).2.2 ∧
        ((registryAfter calls).reserveFirstFit request).2.1 = some taken.record) ∧
    (((registryAfter calls).reserveFirstFit request).1.ok = false →
      ((registryAfter calls).reserveFirstFit request).2 = (none, registryAfter calls)) ∧
    ((registryAfter calls).reserveFirstFit request).1.code ≠ .internal := by
  have hlisted := (wellFormed_registryAfter calls).listed
  have heligible := eligible_iff_fits (registryAfter calls) request
  obtain ⟨hnone, he⟩ | ⟨before, id, after, stored, horder, hbefore, hl, halive, hfit, he⟩ :=
    reserveFrom_first request (registryAfter calls).registrationOrder (registryAfter calls).nodes
  · have hno : ¬ ∃ id, Eligible (registryAfter calls) request id := by
      rintro ⟨id, hid⟩
      have ⟨stored, hl, _⟩ := hid
      exact hnone id ((hlisted id).mpr ⟨stored, hl⟩) ((heligible id).mp hid)
    simp only [reserveFirstFit, he]
    refine ⟨?_, ?_, fun _ => trivial, by decide⟩
    · simp [hno]
    · simp
  · have hid : Eligible (registryAfter calls) request id :=
      (heligible id).mpr ⟨stored, hl, halive, hfit⟩
    -- whoever else is eligible comes later in the order
    have hlater : ∀ id', Eligible (registryAfter calls) request id' → id' ≠ id →
        ∃ m n, JoinedAt calls id m ∧ JoinedAt calls id' n ∧ m < n := by
      intro id' hid' hne
      have hmem : id' ∈ after := by
        have ⟨stored', hl', _⟩ := hid'
        have hmem := (hlisted id').mpr ⟨stored', hl'⟩
        rw [horder, List.mem_append, List.mem_cons] at hmem
        rcases hmem with hmem | rfl | hmem
        · exact absurd ((heligible id').mp hid') (hbefore id' hmem)
        · exact absurd rfl hne
        · exact hmem
      obtain ⟨m, hm⟩ := (inOrder calls).joined id (by rw [horder]; simp)
      obtain ⟨n, hn⟩ := (inOrder calls).joined id' (by rw [horder]; simp [hmem])
      have hsorted := (inOrder calls).sorted
      rw [horder] at hsorted
      have hpair := (List.pairwise_cons.mp (List.pairwise_append.mp hsorted).2.1).1 id' hmem
      exact ⟨m, n, hm, hn, hpair m n hm hn⟩
    simp only [reserveFirstFit, he]
    refine ⟨⟨fun _ => ⟨id, hid⟩, fun _ => rfl⟩, fun _ => ?_, by simp, by decide⟩
    exact ⟨id, stored, _, hid, hlater, reserves_putPool hl hfit, rfl⟩

end NodeRegistry

end AgentRuntime
