import AgentRuntime.Library.Run

/-!
# Quiescent states

Some of the labels of a system are its own moves, the others come from outside.
A system whose own moves use up a measure comes to rest whenever nothing comes
from outside, and what holds in each state that is at rest holds in the end.
-/
namespace Run

variable {σ α : Type} {step : σ → α → Option σ}

/-- No move of a kind is enabled. -/
def Quiescent (step : σ → α → Option σ) (own : α → Prop) (s : σ) : Prop :=
  ∀ a, own a → step s a = none

/-- Moves of a kind keep `I` and use up the measure. -/
def Spends (step : σ → α → Option σ) (own : α → Prop) (I : σ → Prop) (μ : σ → Nat) : Prop :=
  ∀ s a t, I s → own a → step s a = some t → I t ∧ μ t < μ s

variable {own : α → Prop} {I : σ → Prop} {μ : σ → Nat}

/-- The measure pays for every move of a run. -/
theorem Spends.length_le (h : Spends step own I μ) {as : List α} {s t : σ}
    (hr : run step as s = some t) (hs : I s) (hown : ∀ a ∈ as, own a) :
    as.length + μ t ≤ μ s := by
  induction as generalizing s with
  | nil =>
    cases hr
    simp
  | cons a as ih =>
    obtain ⟨u, hstep, hr⟩ := run_cons_some hr
    obtain ⟨hu, hlt⟩ := h s a u hs (hown a (by simp)) hstep
    have hle := ih hr hu (fun b hb => hown b (by simp [hb]))
    simp only [List.length_cons]
    omega

/-- Left to itself the system comes to rest. -/
theorem Spends.exists_quiescent (h : Spends step own I μ) {s : σ} (hs : I s) :
    ∃ as t, (∀ a ∈ as, own a) ∧ run step as s = some t ∧ Quiescent step own t := by
  by_cases hq : Quiescent step own s
  · exact ⟨[], s, by simp, rfl, hq⟩
  · simp only [Quiescent, not_forall] at hq
    obtain ⟨a, ha, hne⟩ := hq
    obtain ⟨u, hu⟩ := Option.ne_none_iff_exists'.mp hne
    obtain ⟨hI, hlt⟩ := h s a u hs ha hu
    obtain ⟨as, t, hown, hr, ht⟩ := h.exists_quiescent hI
    refine ⟨a :: as, t, ?_, ?_, ht⟩
    · simp only [List.mem_cons, forall_eq_or_imp]
      exact ⟨ha, hown⟩
    · rw [run_cons, hu]
      exact hr
termination_by μ s

end Run
