import Mathlib.Data.List.Induction

/-!
# Openings and closings in a history

A history of events of which some open and some close. What is open when the
history ends, and when no two openings follow each other without a closing in
between. Nothing here depends on what the events are.
-/
namespace Brackets

variable {α : Type} {opens closes : α → Prop} {log more before after : List α} {a b : α}

/-- Nothing has closed since some opening. -/
def Pending (opens closes : α → Prop) (log : List α) : Prop :=
  ∃ before a after, log = before ++ a :: after ∧ opens a ∧ ∀ e ∈ after, ¬ closes e

/-- Between any two openings there is a closing. -/
def Alternating (opens closes : α → Prop) (log : List α) : Prop :=
  ∀ before a mid b after, log = before ++ a :: (mid ++ b :: after) → opens a → opens b →
    ∃ e ∈ mid, closes e

theorem not_pending_nil : ¬ Pending opens closes [] := by
  rintro ⟨before, a, after, he, -, -⟩
  simp at he

theorem alternating_nil : Alternating opens closes [] := by
  intro before a mid b after he
  simp at he

/-- An event that is not in the second part of a history is in the first. -/
theorem split_first (he : log ++ more = before ++ a :: after) (ha : a ∉ more) :
    ∃ rest, log = before ++ a :: rest ∧ after = rest ++ more := by
  obtain ⟨mid, -, hmore⟩ | ⟨mid, hlog, hmid⟩ := List.append_eq_append_iff.mp he
  · rw [hmore] at ha
    simp at ha
  · cases mid with
    | nil =>
      obtain rfl : more = a :: after := hmid.symm
      simp at ha
    | cons c rest =>
      obtain ⟨rfl, rfl⟩ := List.cons.inj hmid
      exact ⟨rest, hlog, rfl⟩

theorem pending_append (hno : ∀ e ∈ more, ¬ opens e) :
    Pending opens closes (log ++ more) ↔ Pending opens closes log ∧ ∀ e ∈ more, ¬ closes e := by
  constructor
  · rintro ⟨before, a, after, he, ha, hafter⟩
    obtain ⟨rest, hlog, rfl⟩ := split_first he fun hmem => hno a hmem ha
    exact ⟨⟨before, a, rest, hlog, ha, fun e h => hafter e (List.mem_append_left _ h)⟩,
      fun e h => hafter e (List.mem_append_right _ h)⟩
  · rintro ⟨⟨before, a, rest, rfl, ha, hrest⟩, hmore⟩
    refine ⟨before, a, rest ++ more, by simp, ha, ?_⟩
    intro e h
    obtain h | h := List.mem_append.mp h
    · exact hrest e h
    · exact hmore e h

/-- After a closing nothing is pending. -/
theorem not_pending_append (hno : ∀ e ∈ more, ¬ opens e) (ha : a ∈ more) (hc : closes a) :
    ¬ Pending opens closes (log ++ more) :=
  fun h => ((pending_append hno).mp h).2 a ha hc

theorem Alternating.append (h : Alternating opens closes log) (hno : ∀ e ∈ more, ¬ opens e) :
    Alternating opens closes (log ++ more) := by
  intro before a mid b after he ha hb
  have hsplit : log ++ more = (before ++ a :: mid) ++ b :: after := by
    rw [he, List.append_assoc, List.cons_append]
  obtain ⟨rest, hlog, -⟩ := split_first hsplit fun hmem => hno b hmem hb
  exact h before a mid b rest (by rw [hlog, List.append_assoc, List.cons_append]) ha hb

/-- An opening is added while nothing is open. -/
theorem Alternating.concat (h : Alternating opens closes log)
    (hfree : ¬ Pending opens closes log) (c : α) : Alternating opens closes (log ++ [c]) := by
  intro before a mid b after he ha hb
  have hsplit : log ++ [c] = (before ++ a :: mid) ++ b :: after := by
    rw [he, List.append_assoc, List.cons_append]
  cases after using List.reverseRecOn with
  | nil =>
    obtain ⟨rfl, -⟩ := List.append_inj' hsplit rfl
    by_contra hnone
    exact hfree ⟨before, a, mid, rfl, ha, fun e he hc => hnone ⟨e, he, hc⟩⟩
  | append_singleton after d =>
    rw [← List.cons_append, ← List.append_assoc] at hsplit
    obtain ⟨rfl, -⟩ := List.append_inj' hsplit rfl
    exact h before a mid b after (by rw [List.append_assoc, List.cons_append]) ha hb

end Brackets
