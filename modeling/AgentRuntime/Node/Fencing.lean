import AgentRuntime.Node.RegistryHistory

/-!
# Incarnation fencing

A message of an older lifetime must not get through. The fence is kept in the
live entry: a removal takes it down, and the next registration under the NodeID
is then accepted whatever incarnation it carries.
-/
namespace AgentRuntime

namespace NodeRegistry

namespace History

variable {s t : History} {c : Call}

/-- A message older than one already accepted is refused and changes nothing. -/
def Fenced (s : History) (c : Call) : Prop :=
  ∀ id i, c.message = some (id, i) → i < s.highest id →
    (c.reply s.registry).1.ok = false ∧ (c.reply s.registry).2 = s.registry

/-- What fencing means for a whole history. -/
structure FencedRun (calls : List Call) : Prop where
  fenced : Run.Along step Fenced calls initial
  nondecreasing : ∀ before between after s t, calls = before ++ between ++ after →
    Run.run step before initial = some s → Run.run step between s = some t →
    ∀ id i j, s.registry.lifetimeOf id = some i → t.registry.lifetimeOf id = some j → i ≤ j

/-- A registration that passes its checks and finds no entry is not older than what was
accepted for its NodeID before. -/
def registersNoOlder (s : History) : Call → Prop
  | .registerNode node _ => acceptsRecord node →
    s.registry.lifetimeOf node.nodeId = none → s.highest node.nodeId ≤ node.incarnation
  | _ => True

theorem le_raise (highest : NodeID → Nat) (message : Option (NodeID × Nat)) (id : NodeID) :
    highest id ≤ raise highest message id := by
  cases message with
  | none => exact Nat.le_refl _
  | some m =>
    simp only [raise]
    split
    · exact Nat.le_max_left _ _
    · exact Nat.le_refl _

theorem raise_of_le {highest : NodeID → Nat} {message : Option (NodeID × Nat)} {id : NodeID}
    (h : ∀ i, message = some (id, i) → i ≤ highest id) : raise highest message id = highest id := by
  cases message with
  | none => rfl
  | some m =>
    obtain ⟨nodeId, i⟩ := m
    simp only [raise]
    split
    · rename_i hid
      subst hid
      exact Nat.max_eq_left (h i rfl)
    · rfl

theorem step_highest (h : step s c = some t) (id : NodeID) :
    t.highest id = if (c.reply s.registry).1.ok then raise s.highest c.message id
      else s.highest id := by
  cases h
  simp only
  split <;> rfl

theorem step_highest_le (h : step s c = some t) (id : NodeID) : s.highest id ≤ t.highest id := by
  rw [step_highest h]
  split
  · exact le_raise _ _ _
  · exact Nat.le_refl _

/-- The registered incarnation is the largest that was accepted. -/
structure Fence (s : History) : Prop where
  wellFormed : WellFormed s.registry
  current : ∀ id i, s.registry.lifetimeOf id = some i → s.highest id = i

theorem fence_initial : Fence initial where
  wellFormed := wellFormed_empty
  current := by
    intro id i h
    simp [initial, lifetimeOf, empty] at h

/-- A call that starts no lifetime under a NodeID can only end the one that is there. -/
theorem lifetimeOf_unstarted {reg : NodeRegistry} (h : WellFormed reg) {c : Call} {id : NodeID}
    (hstart : ∀ node now, c = .registerNode node now → node.nodeId = id →
      ¬ startsLifetime reg node) {i : Nat}
    (hi : (c.reply reg).2.lifetimeOf id = some i) : reg.lifetimeOf id = some i := by
  rw [lifetimeOf_eq_stateOf] at hi ⊢
  cases c.lifetimeMove h id with
  | kept same => rwa [same] at hi
  | started node now call key starts => exact absurd starts (hstart node now call key)
  | removed _ _ _ after => simp [after] at hi
  | judged j state state' before after =>
    rw [after] at hi
    rw [before]
    exact hi

theorem fence_step (hf : Fence s) (hc : registersNoOlder s c) (h : step s c = some t) :
    Fence t := by
  have hraise := step_highest h
  cases h
  refine ⟨c.wellFormed hf.wellFormed, ?_⟩
  intro id i hi
  rw [hraise id]
  by_cases hstart : ∃ node now, c = .registerNode node now ∧ node.nodeId = id ∧
      startsLifetime s.registry node
  · -- the new lifetime's incarnation is what the message raises the fence to
    obtain ⟨node, now, rfl, rfl, hstarts⟩ := hstart
    obtain ⟨hno, -, -⟩ | ⟨-, hok, hstates⟩ := registerNode_reply s.registry node now
    · exact absurd hstarts hno
    have hinc : node.incarnation = i := by
      simpa [Call.reply, lifetimeOf_eq_stateOf, hstates] using hi
    have hle : s.highest node.nodeId ≤ node.incarnation := by
      cases hl : s.registry.lifetimeOf node.nodeId with
      | none => exact hc hstarts.1 hl
      | some j =>
        rw [hf.current _ j hl]
        exact Nat.le_of_lt (hstarts.2 j hl)
    simp only [Call.reply, hok, if_true, Call.message, raise]
    omega
  · have hold : s.registry.lifetimeOf id = some i := by
      apply lifetimeOf_unstarted hf.wellFormed _ hi
      intro node now hcall hkey hstarts
      exact hstart ⟨node, now, hcall, hkey, hstarts⟩
    have hcur := hf.current id i hold
    split
    · rename_i hok
      rw [raise_of_le, hcur]
      intro j hm
      obtain ⟨hno, -⟩ | hl | ⟨node, now, rfl, hstarts, -⟩ := Call.reply_message s.registry hm
      · rw [hok] at hno
        cases hno
      · rw [hold] at hl
        cases hl
        omega
      · cases hm
        exact absurd ⟨node, now, rfl, rfl, hstarts⟩ hstart
    · exact hcur

/-- Under the fence, only a registration that finds no entry can be older and get through. -/
theorem fenced_iff (hf : Fence s) : Fenced s c ↔ registersNoOlder s c := by
  constructor
  · intro h
    cases c with
    | registerNode node now =>
      intro haccepts hnone
      by_contra hold
      obtain ⟨hno, -⟩ := h node.nodeId node.incarnation rfl (by omega)
      obtain ⟨hstarts, -, -⟩ | ⟨-, hok, -⟩ := registerNode_reply s.registry node now
      · exact hstarts ⟨haccepts, by simp [hnone]⟩
      · rw [Call.reply, hok] at hno
        cases hno
    | heartbeat | updateLiveness | removeNode | reserveFirstFit | release => exact trivial
  · intro hc id i hm hlt
    obtain hrefused | hl | ⟨node, now, rfl, hstarts, -⟩ := Call.reply_message s.registry hm
    · exact hrefused
    · have := hf.current id i hl
      omega
    · cases hm
      cases hl : s.registry.lifetimeOf node.nodeId with
      | none =>
        have := hc hstarts.1 hl
        omega
      | some j =>
        have := hf.current _ j hl
        have := hstarts.2 j hl
        omega

theorem highest_mono {calls : List Call} (h : Run.run step calls s = some t) (id : NodeID) :
    s.highest id ≤ t.highest id :=
  Run.monotone_run (R := fun s t => s.highest id ≤ t.highest id) (fun _ => Nat.le_refl _)
    (fun _ _ _ => Nat.le_trans) (fun _ _ _ _ h => step_highest_le h id)
    (Run.along_true calls s) h

theorem along_fenced_iff (calls : List Call) : Run.Along step Fenced calls initial ↔
    Run.Along step registersNoOlder calls initial := by
  obtain ⟨u, hu⟩ := run_total calls initial
  exact Run.along_congr_of_kept (fun _ _ _ hf hc h => fence_step hf hc h)
    (fun _ _ _ hf _ => fenced_iff hf) hu fence_initial

theorem fencedRun_of_noOlder {calls : List Call}
    (hc : Run.Along step registersNoOlder calls initial) : FencedRun calls := by
  refine ⟨(along_fenced_iff calls).mpr hc, ?_⟩
  rintro before between after s t rfl hs ht id i j hi hj
  rw [List.append_assoc, Run.along_append hs, Run.along_append ht] at hc
  have hfs : Fence s := Run.invariant (fun _ _ _ => fence_step) hc.1 hs fence_initial
  have hft : Fence t := Run.invariant (fun _ _ _ => fence_step) hc.2.1 ht hfs
  have := highest_mono ht id
  rw [hfs.current id i hi, hft.current id j hj] at this
  exact this

/-- A history is fenced exactly when no registration after a removal is older than what was
accepted for its NodeID before. -/
theorem fencing_iff (calls : List Call) :
    FencedRun calls ↔ Run.Along step registersNoOlder calls initial :=
  ⟨fun h => (along_fenced_iff calls).mp h.fenced, fencedRun_of_noOlder⟩

/-- The worker restarts and the second lifetime is removed. -/
def restartedAndRemoved : List Call :=
  [Sample.register 1, Sample.register 2, .removeNode Sample.nodeId 2]

/-- A late duplicate of the first registration is accepted then. -/
theorem late_registration_accepted : ∃ s, Run.run step restartedAndRemoved initial = some s ∧
    s.highest Sample.nodeId = 2 ∧ ((Sample.register 1).reply s.registry).1.ok = true ∧
    ((Sample.register 1).reply s.registry).2.lifetimeOf Sample.nodeId = some 1 ∧
    ¬ FencedRun (restartedAndRemoved ++ [Sample.register 1]) := by
  refine ⟨Run.stateAfter step restartedAndRemoved initial, Run.run_stateAfter (by decide),
    by decide, by decide, by decide, fun h => ?_⟩
  have hfenced := Run.along_iff.mp h.fenced restartedAndRemoved (Sample.register 1) []
    (Run.stateAfter step restartedAndRemoved initial) rfl (Run.run_stateAfter (by decide))
  obtain ⟨hno, -⟩ := hfenced Sample.nodeId 1 rfl (by decide)
  exact absurd hno (by decide)

end History

end NodeRegistry

end AgentRuntime
