import AgentRuntime.Node.Commitment

/-!
# The two containers and the ledger agree

First-fit and the liveness scan walk `registration_order_` and look each id up
in `nodes_`; the control plane reads `schedulable_available` off the record and
reserves from the pool. What a call can do to a pool is said once, with the
lifetime the pool belongs to, and everything else follows from it.
-/
namespace AgentRuntime

namespace NodeRegistry

/-- `ReserveFirstFit` and `Release`, the two calls that move capacity. -/
def Call.movesCapacity : Call → Prop
  | .reserveFirstFit _ => True
  | .release _ _ => True
  | _ => False

/-- What one call can do to the pool under a NodeID. -/
inductive PoolMove (reg : NodeRegistry) (c : Call) (id : NodeID) (reg' : NodeRegistry) : Prop where
  | kept (same : reg'.poolOf id = reg.poolOf id)
  | reserved (i : Nat) (pool : ResourcePool) (request : ResourceRequest)
      (call : c = .reserveFirstFit request) (before : reg.poolOf id = some (i, pool))
      (fits : pool.canFit request = true)
      (after : reg'.poolOf id = some (i, (pool.acquire request).2))
  | released (i : Nat) (pool : ResourcePool) (request : ResourceRequest)
      (call : c = .release id request) (before : reg.poolOf id = some (i, pool))
      (fits : pool.canRelease request = true)
      (after : reg'.poolOf id = some (i, (pool.release request).2))
  | started (node : NodeRecord) (now : Int) (call : c = .registerNode node now)
      (key : node.nodeId = id) (starts : startsLifetime reg node)
      (after : reg'.poolOf id = some (node.incarnation, ResourcePool.new node.reportedAvailable))
  | removed (i : Nat) (call : c = .removeNode id i) (before : reg.lifetimeOf id = some i)
      (after : reg'.poolOf id = none)

theorem Call.poolMove (reg : NodeRegistry) (c : Call) (id : NodeID) :
    PoolMove reg c id (c.reply reg).2 := by
  cases c with
  | registerNode node now =>
    by_cases hstarts : startsLifetime reg node
    · by_cases hid : id = node.nodeId
      · refine .started node now rfl hid.symm hstarts ?_
        rw [Call.reply, poolOf, registerNode_starts now hstarts, if_pos hid]
        rfl
      · refine .kept ?_
        rw [Call.reply, poolOf, registerNode_starts now hstarts, if_neg hid, poolOf]
    · exact .kept (by rw [Call.reply, registerNode_same now hstarts])
  | heartbeat nodeId incarnation reported running now =>
    exact .kept (heartbeat_poolOf reg nodeId incarnation reported running now id)
  | updateLiveness now suspect dead => exact .kept (updateLiveness_poolOf reg now suspect dead id)
  | removeNode nodeId incarnation =>
    obtain he | ⟨hinc, hpools⟩ := removeNode_poolOf reg nodeId incarnation
    · exact .kept (by rw [Call.reply, he])
    by_cases hid : id = nodeId
    · subst hid
      exact .removed incarnation rfl hinc (by rw [Call.reply, hpools, if_pos rfl])
    · exact .kept (by rw [Call.reply, hpools, if_neg hid])
  | reserveFirstFit request =>
    simp only [Call.reply]
    obtain he | ⟨k, stored, hl, -, hfit, he⟩ := reserveFirstFit_cases reg request
    · exact .kept (by rw [he])
    by_cases hid : id = k
    · subst hid
      refine .reserved _ _ request rfl (poolOf_of_lookup hl) hfit ?_
      rw [he, putPool_poolOf, if_pos rfl]
    · refine .kept ?_
      rw [he, putPool_poolOf, if_neg hid]
  | release nodeId request =>
    simp only [Call.reply]
    obtain ⟨-, he, -⟩ | ⟨stored, hl, hfit, he⟩ := release_cases reg nodeId request
    · exact .kept (by rw [he])
    by_cases hid : id = nodeId
    · subst hid
      refine .released _ _ request rfl (poolOf_of_lookup hl) hfit ?_
      rw [he, putPool_poolOf, if_pos rfl]
    · refine .kept ?_
      rw [he, putPool_poolOf, if_neg hid]

/-- While a lifetime stays registered, the other calls leave its pool alone. -/
theorem PoolMove.same {reg reg' : NodeRegistry} {c : Call} {id : NodeID} {i : Nat}
    (h : PoolMove reg c id reg') (hc : ¬ c.movesCapacity) (hbefore : reg.lifetimeOf id = some i)
    (hafter : reg'.lifetimeOf id = some i) : reg'.poolOf id = reg.poolOf id := by
  cases h with
  | kept same => exact same
  | reserved _ _ _ call => exact absurd (call ▸ trivial) hc
  | released _ _ _ call => exact absurd (call ▸ trivial) hc
  | started node now call key starts after =>
    -- a new lifetime has a larger incarnation
    rw [lifetimeOf_eq_poolOf, after] at hafter
    cases hafter
    rw [← key] at hbefore
    exact absurd (starts.2 _ hbefore) (lt_irrefl _)
  | removed _ _ _ after =>
    rw [lifetimeOf_eq_poolOf, after] at hafter
    cases hafter

theorem heartbeat_refused {reg : NodeRegistry} {nodeId : NodeID} {incarnation : Nat}
    {reported : ResourceSet} {running : Nat} {now : Int}
    (h : (reg.heartbeat nodeId incarnation reported running now).1.ok = false) :
    (reg.heartbeat nodeId incarnation reported running now).2 = reg := by
  simp only [heartbeat] at h ⊢
  split_ifs at h ⊢ with hnil hinc
  · rfl
  · rfl
  cases hl : reg.nodes.lookup nodeId with
  | none => rfl
  | some stored =>
    simp only [hl] at h ⊢
    split_ifs at h ⊢ with hne hdead
    · rfl
    · rfl
    · cases h

theorem removeNode_refused {reg : NodeRegistry} {nodeId : NodeID} {incarnation : Nat}
    (h : (reg.removeNode nodeId incarnation).1.ok = false) :
    (reg.removeNode nodeId incarnation).2 = reg := by
  simp only [removeNode] at h ⊢
  cases hl : reg.nodes.lookup nodeId with
  | none => rfl
  | some stored =>
    simp only [hl] at h ⊢
    split_ifs at h ⊢ with hne
    · rfl
    · cases h

/-- A call that does not return OK leaves the registry as it is. -/
theorem Call.refused {reg : NodeRegistry} {c : Call} (h : (c.reply reg).1.ok = false) :
    (c.reply reg).2 = reg := by
  cases c with
  | registerNode node now =>
    obtain ⟨-, he, -⟩ | ⟨-, hok, -⟩ := registerNode_reply reg node now
    · exact he
    · rw [Call.reply, hok] at h
      cases h
  | heartbeat nodeId incarnation reported running now => exact heartbeat_refused h
  | updateLiveness now suspect dead => cases h
  | removeNode nodeId incarnation => exact removeNode_refused h
  | reserveFirstFit request =>
    simp only [Call.reply] at h ⊢
    obtain he | ⟨k, stored, -, -, -, he⟩ := reserveFirstFit_cases reg request
    · rw [he]
    · rw [he] at h
      cases h
  | release nodeId request => exact release_refused h

/-- The calls after the first ones find the same lifetime registered under a NodeID, each of
them, and the last one leaves it registered. -/
def Throughout (calls later : List Call) (id : NodeID) (i : Nat) : Prop :=
  ∀ k ≤ later.length, (registryAfter (calls ++ later.take k)).lifetimeOf id = some i

theorem Throughout.pool {calls later : List Call} {id : NodeID} {i : Nat}
    (h : Throughout calls later id i) (hkeep : ∀ c ∈ later, ¬ c.movesCapacity) :
    (registryAfter (calls ++ later)).poolOf id = (registryAfter calls).poolOf id := by
  induction later using List.reverseRecOn with
  | nil => simp
  | append_singleton later c ih =>
    have hprefix : Throughout calls later id i := by
      intro k hk
      have hshort := h k (by simp only [List.length_append]; omega)
      rwa [List.take_append_of_le_length hk] at hshort
    have hbefore := hprefix later.length le_rfl
    have hafter := h (later ++ [c]).length le_rfl
    rw [List.take_length] at hbefore hafter
    rw [← List.append_assoc, registryAfter_concat] at hafter ⊢
    rw [(c.poolMove _ id).same (hkeep c (by simp)) hbefore hafter]
    exact ih hprefix fun c hc => hkeep c (List.mem_append_left _ hc)

/-- The two containers list the same nodes, every entry is valid and its record carries what its
pool has available. A call that is refused changes nothing. A lifetime's pool is changed by the
reservations and releases that are made from it and by no other call, however many there are. -/
theorem representation_invariant (calls : List Call) :
    WellFormed (registryAfter calls) ∧
    (∀ c, (c.reply (registryAfter calls)).1.ok = false →
      registryAfter (calls ++ [c]) = registryAfter calls) ∧
    (∀ c id, PoolMove (registryAfter calls) c id (registryAfter (calls ++ [c]))) ∧
    ∀ later id i, Throughout calls later id i → (∀ c ∈ later, ¬ c.movesCapacity) →
      (registryAfter (calls ++ later)).poolOf id = (registryAfter calls).poolOf id := by
  refine ⟨wellFormed_registryAfter calls, ?_, ?_, fun later id i h hkeep => h.pool hkeep⟩
  · intro c h
    rw [registryAfter_concat]
    exact Call.refused h
  · intro c id
    rw [registryAfter_concat]
    exact c.poolMove _ id

end NodeRegistry

end AgentRuntime
