import AgentRuntime.Node.Death
import AgentRuntime.Node.Fencing

/-!
# Histories in which no node is removed

An entry stays where nothing is removed, and with it what the registry knows of the lifetimes that
came before. So there is no condition on the registrations that are left for lifetimes to be fenced
and for deaths to be final.
-/
namespace AgentRuntime

namespace NodeRegistry

namespace History

variable {s t : History} {c : Call} {calls : List Call}

def isRemoval : Call → Bool
  | .removeNode _ _ => true
  | _ => false

/-- The incarnation registered under the NodeID; 0 when there is none. -/
def reach (s : History) (id : NodeID) : Nat := (s.registry.lifetimeOf id).getD 0

theorem reach_of_stateOf {id : NodeID} {i : Nat} {state : NodeState}
    (h : s.registry.stateOf id = some (i, state)) : s.reach id = i := by
  rw [reach, lifetimeOf_eq_stateOf, h]
  rfl

theorem reach_mono (hw : WellFormed s.registry) (hc : isRemoval c = false)
    (h : step s c = some t) (id : NodeID) : s.reach id ≤ t.reach id := by
  cases h
  simp only [reach, lifetimeOf_eq_stateOf]
  cases c.lifetimeMove hw id with
  | kept same => rw [same]
  | started node now _ key starts after =>
    rw [after]
    cases hs : s.registry.stateOf id with
    | none => exact Nat.zero_le _
    | some entry =>
      refine Nat.le_of_lt (starts.2 entry.1 ?_)
      rw [key, lifetimeOf_eq_stateOf, hs]
      rfl
  | removed i _ call =>
    rw [call] at hc
    cases hc
  | judged i _ _ before after =>
    rw [before, after]
    exact Nat.le_refl i

/-- What was accepted or announced is not newer than what is registered. -/
structure Remembered (s : History) : Prop where
  wellFormed : WellFormed s.registry
  highest : ∀ id, s.highest id ≤ s.reach id
  announced : ∀ id i, ⟨id, i⟩ ∈ s.announced → i ≤ s.reach id

theorem remembered_initial : Remembered initial where
  wellFormed := wellFormed_empty
  highest _ := Nat.zero_le _
  announced id i h := by cases h

/-- A message that is accepted names what is registered after it. -/
theorem reach_of_accepted (hw : WellFormed s.registry) (hc : isRemoval c = false)
    (h : step s c = some t) (hok : (c.reply s.registry).1.ok = true) {id : NodeID} {i : Nat}
    (hm : c.message = some (id, i)) : i ≤ t.reach id := by
  obtain ⟨hno, -⟩ | hl | ⟨node, now, rfl, hstarts, -⟩ := Call.reply_message s.registry hm
  · rw [hok] at hno
    cases hno
  · have hold : s.reach id = i := by rw [reach, hl, Option.getD_some]
    exact hold ▸ reach_mono hw hc h id
  · cases hm
    cases h
    obtain ⟨hno, -, -⟩ | ⟨-, -, hstates⟩ := registerNode_reply s.registry node now
    · exact absurd hstarts hno
    · exact Nat.le_of_eq (reach_of_stateOf ((hstates node.nodeId).trans (if_pos rfl))).symm

theorem Remembered.step (hr : Remembered s) (hc : isRemoval c = false) (h : step s c = some t) :
    Remembered t := by
  have hmono := reach_mono hr.wellFormed hc h
  refine ⟨wellFormed_step hr.wellFormed h, fun id => ?_, fun id i hmem => ?_⟩
  · rw [step_highest h]
    have hold := (hr.highest id).trans (hmono id)
    split
    · rename_i hok
      cases hm : c.message with
      | none => exact hold
      | some m =>
        simp only [raise]
        split
        · rename_i hid
          subst hid
          exact Nat.max_le.mpr ⟨hold, reach_of_accepted hr.wellFormed hc h hok hm⟩
        · exact hold
    · exact hold
  · have hspec := announces_spec hr.wellFormed c
    cases h
    obtain hold | hnew := List.mem_append.mp hmem
    · exact (hr.announced id i hold).trans (hmono id)
    · exact Nat.le_of_eq (reach_of_stateOf (hspec.2 id i hnew).2).symm

theorem Remembered.noOlder (hr : Remembered s) : registersNoOlder s c := by
  cases c with
  | registerNode node now =>
    intro _ hnone
    have hreach : s.reach node.nodeId = 0 := by rw [reach, hnone, Option.getD_none]
    exact ((hr.highest _).trans (Nat.le_of_eq hreach)).trans (Nat.zero_le _)
  | heartbeat | updateLiveness | removeNode | reserveFirstFit | release => exact trivial

theorem Remembered.undead (hr : Remembered s) : startsUndead s c := by
  cases c with
  | registerNode node now =>
    intro hstarts hmem
    have hle := hr.announced _ _ hmem
    rw [reach] at hle
    cases hl : s.registry.lifetimeOf node.nodeId with
    | none =>
      rw [hl, Option.getD_none] at hle
      have := hstarts.1.2.2
      omega
    | some j =>
      rw [hl, Option.getD_some] at hle
      have := hstarts.2 j hl
      omega
  | heartbeat | updateLiveness | removeNode | reserveFirstFit | release => exact trivial

theorem remembered_run (hc : ∀ c ∈ calls, isRemoval c = false)
    (h : Run.run step calls initial = some s) : Remembered s :=
  Run.invariant (fun _ _ _ => Remembered.step)
    (Run.along_iff.mpr fun _ c _ _ he _ => hc c (by simp [he])) h remembered_initial

/-- Where nothing is removed, lifetimes are fenced and deaths are final. -/
theorem safe_of_no_removal (hc : ∀ c ∈ calls, isRemoval c = false)
    (hservice : ∀ c ∈ calls, throughService c) : DeathFinal calls ∧ FencedRun calls := by
  have hremembered : ∀ before c after s, calls = before ++ c :: after →
      Run.run step before initial = some s → Remembered s := by
    rintro before c after s rfl hs
    exact remembered_run (fun c hmem => hc c (List.mem_append_left _ hmem)) hs
  constructor
  · refine deathFinal_of_undead (Run.along_iff.mpr fun before c after s he hs => ⟨?_, ?_⟩)
    · exact (hremembered before c after s he hs).undead
    · exact hservice c (by simp [he])
  · exact fencedRun_of_noOlder (Run.along_iff.mpr fun before c after s he hs =>
      (hremembered before c after s he hs).noOlder)

end History

end NodeRegistry

end AgentRuntime
