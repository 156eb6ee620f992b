import Mathlib.Data.List.Basic

/-!
# Runs of a labelled step function

A system is a function `step : σ → α → Option σ`: the label resolves every
nondeterministic choice, and `none` means that the labelled step is not
enabled. Nothing here depends on what the states or the labels are.
-/
namespace Run

variable {σ τ α β : Type}

/-- Take the labelled steps in order; `none` when one of them is not enabled. -/
def run (step : σ → α → Option σ) : List α → σ → Option σ
  | [], s => some s
  | a :: as, s => (step s a).bind (run step as)

/-- Every step of the run is taken from a state in which it meets `C`. -/
def Along (step : σ → α → Option σ) (C : σ → α → Prop) : List α → σ → Prop
  | [], _ => True
  | a :: as, s => C s a ∧ match step s a with
    | none => True
    | some t => Along step C as t

instance decidableAlong (step : σ → α → Option σ) (C : σ → α → Prop)
    [∀ s a, Decidable (C s a)] : ∀ as s, Decidable (Along step C as s)
  | [], _ => .isTrue trivial
  | a :: as, s =>
    match h : step s a with
    | none => decidable_of_iff (C s a) (by simp [Along, h])
    | some t =>
      have := decidableAlong step C as t
      decidable_of_iff (C s a ∧ Along step C as t) (by simp [Along, h])

variable {step : σ → α → Option σ}

@[simp] theorem run_nil (s : σ) : run step [] s = some s := rfl
@[simp] theorem run_cons (a : α) (as : List α) (s : σ) :
    run step (a :: as) s = (step s a).bind (run step as) := rfl

theorem run_cons_some {a : α} {as : List α} {s t : σ} (h : run step (a :: as) s = some t) :
    ∃ u, step s a = some u ∧ run step as u = some t :=
  Option.bind_eq_some_iff.mp h

/-- A run of a system whose every step is enabled goes through. -/
theorem run_total (h : ∀ s a, ∃ t, step s a = some t) (as : List α) (s : σ) :
    ∃ t, run step as s = some t := by
  induction as generalizing s with
  | nil => exact ⟨s, rfl⟩
  | cons a as ih =>
    obtain ⟨t, ht⟩ := h s a
    obtain ⟨u, hu⟩ := ih t
    exact ⟨u, by rw [run_cons, ht, Option.bind_some, hu]⟩

theorem run_append (as bs : List α) (s : σ) :
    run step (as ++ bs) s = (run step as s).bind (run step bs) := by
  induction as generalizing s with
  | nil => rfl
  | cons a as ih =>
    simp only [List.cons_append, run_cons]
    cases step s a with
    | none => rfl
    | some t => exact ih t

theorem run_append_some {as bs : List α} {s t u : σ} (h₁ : run step as s = some t)
    (h₂ : run step bs t = some u) : run step (as ++ bs) s = some u := by
  rw [run_append, h₁]
  exact h₂

/-- A run through a concatenation stops in between. -/
theorem run_split {as bs : List α} {s u : σ} (h : run step (as ++ bs) s = some u) :
    ∃ t, run step as s = some t ∧ run step bs t = some u := by
  rw [run_append] at h
  exact Option.bind_eq_some_iff.mp h

theorem along_cons {C : σ → α → Prop} {a : α} {as : List α} {s t : σ} (h : step s a = some t) :
    Along step C (a :: as) s ↔ C s a ∧ Along step C as t := by
  simp [Along, h]

/-- `Along` speaks of each step separately. -/
theorem along_iff {C : σ → α → Prop} {as : List α} {s : σ} :
    Along step C as s ↔
      ∀ pre a post t, as = pre ++ a :: post → run step pre s = some t → C t a := by
  induction as generalizing s with
  | nil => simp [Along]
  | cons b as ih =>
    constructor
    · intro h pre a post t he ht
      cases pre with
      | nil =>
        obtain ⟨rfl, rfl⟩ := List.cons.inj he
        cases ht
        exact h.1
      | cons c pre =>
        obtain ⟨rfl, rfl⟩ := List.cons.inj he
        obtain ⟨u, hu, hr⟩ := run_cons_some ht
        exact ih.mp ((along_cons hu).mp h).2 pre a post t rfl hr
    · intro h
      refine ⟨h [] b as s rfl rfl, ?_⟩
      cases hs : step s b with
      | none => trivial
      | some u =>
        apply ih.mpr
        intro pre a post t he ht
        exact h (b :: pre) a post t (by rw [he]; rfl) (by simp [hs, ht])

theorem along_append {C : σ → α → Prop} {as bs : List α} {s t : σ}
    (h : run step as s = some t) :
    Along step C (as ++ bs) s ↔ Along step C as s ∧ Along step C bs t := by
  induction as generalizing s with
  | nil =>
    cases h
    simp [Along]
  | cons a as ih =>
    obtain ⟨u, hu, hrest⟩ := run_cons_some h
    rw [List.cons_append, along_cons hu, along_cons hu, ih hrest, and_assoc]

/-- Conditions that agree on the enabled steps of the states in `I` agree along a run, when the
steps that meet the second one keep `I`. -/
theorem along_congr_of_kept {C D : σ → α → Prop} {I : σ → Prop}
    (hstep : ∀ s a t, I s → D s a → step s a = some t → I t)
    (hCD : ∀ s a t, I s → step s a = some t → (C s a ↔ D s a)) {as : List α} {s t : σ}
    (hr : run step as s = some t) (hs : I s) : Along step C as s ↔ Along step D as s := by
  induction as generalizing s with
  | nil => exact Iff.rfl
  | cons a as ih =>
    obtain ⟨u, hu, hrest⟩ := run_cons_some hr
    rw [along_cons hu, along_cons hu, hCD s a u hs hu]
    exact and_congr_right fun hD => ih hrest (hstep s a u hs hD hu)

theorem along_congr {C D : σ → α → Prop} {I : σ → Prop}
    (hstep : ∀ s a t, I s → step s a = some t → I t)
    (hCD : ∀ s a t, I s → step s a = some t → (C s a ↔ D s a)) {as : List α} {s t : σ}
    (hr : run step as s = some t) (hs : I s) : Along step C as s ↔ Along step D as s :=
  along_congr_of_kept (fun s a t h _ => hstep s a t h) hCD hr hs

theorem Along.and {C D : σ → α → Prop} {as : List α} {s : σ} (hC : Along step C as s)
    (hD : Along step D as s) : Along step (fun s a => C s a ∧ D s a) as s :=
  along_iff.mpr fun pre a post t he ht =>
    ⟨along_iff.mp hC pre a post t he ht, along_iff.mp hD pre a post t he ht⟩

/-- The invariant rule: what every conditioned step keeps, every conditioned run keeps. -/
theorem invariant {C : σ → α → Prop} {I : σ → Prop}
    (hstep : ∀ s a t, I s → C s a → step s a = some t → I t) {as : List α} {s t : σ}
    (hC : Along step C as s) (hr : run step as s = some t) (hs : I s) : I t := by
  induction as generalizing s with
  | nil =>
    cases hr
    exact hs
  | cons a as ih =>
    obtain ⟨u, hu, hrest⟩ := run_cons_some hr
    obtain ⟨ha, has⟩ := (along_cons hu).mp hC
    exact ih has hrest (hstep s a u hs ha hu)

theorem along_true (as : List α) (s : σ) : Along step (fun _ _ => True) as s :=
  along_iff.mpr fun _ _ _ _ _ _ => trivial

/-- The unconditional invariant rule. -/
theorem invariant_run {I : σ → Prop} (hstep : ∀ s a t, I s → step s a = some t → I t)
    {as : List α} {s t : σ} (hr : run step as s = some t) (hs : I s) : I t :=
  invariant (fun s a t h _ => hstep s a t h) (along_true as s) hr hs

/-- A relation between states that each step respects and that composes holds between
the two ends of a run. -/
theorem monotone_run {R : σ → σ → Prop} (hrefl : ∀ s, R s s)
    (htrans : ∀ s t u, R s t → R t u → R s u) {C : σ → α → Prop}
    (hstep : ∀ s a t, C s a → step s a = some t → R s t) {as : List α} {s t : σ}
    (hC : Along step C as s) (hr : run step as s = some t) : R s t := by
  induction as generalizing s with
  | nil =>
    cases hr
    exact hrefl _
  | cons a as ih =>
    obtain ⟨u, hu, hrest⟩ := run_cons_some hr
    obtain ⟨ha, has⟩ := (along_cons hu).mp hC
    exact htrans s u t (hstep s a u ha hu) (ih has hrest)

/-- The state at the end of a run, for runs that are known to be possible. -/
def stateAfter (step : σ → α → Option σ) (as : List α) (s : σ) : σ := (run step as s).getD s

theorem run_stateAfter {as : List α} {s : σ} (h : (run step as s).isSome = true) :
    run step as s = some (stateAfter step as s) := by
  obtain ⟨t, ht⟩ := Option.isSome_iff_exists.mp h
  simp [stateAfter, ht]

/-- What an observer of the steps of a run sees, in order. -/
def observed (step : σ → α → Option σ) (obs : σ → α → List β) : List α → σ → List β
  | [], _ => []
  | a :: as, s =>
    match step s a with
    | none => []
    | some t => obs s a ++ observed step obs as t

theorem observed_cons {obs : σ → α → List β} {a : α} {as : List α} {s t : σ}
    (h : step s a = some t) :
    observed step obs (a :: as) s = obs s a ++ observed step obs as t := by
  simp [observed, h]

/-- An observer of the labels alone sees the run itself. -/
theorem observed_labels {as : List α} {s t : σ} (h : run step as s = some t) :
    observed step (fun _ a => [a]) as s = as := by
  induction as generalizing s with
  | nil => rfl
  | cons a as ih =>
    obtain ⟨u, hu, hrest⟩ := run_cons_some h
    rw [observed_cons hu, ih hrest]
    rfl

/-- The invariant rule for what has been observed so far together with the state. -/
theorem invariant_observed {C : σ → α → Prop} {obs : σ → α → List β} {I : List β → σ → Prop}
    (hstep : ∀ seen s a t, I seen s → C s a → step s a = some t → I (seen ++ obs s a) t)
    {as : List α} {seen : List β} {s t : σ} (hC : Along step C as s)
    (hr : run step as s = some t) (hs : I seen s) : I (seen ++ observed step obs as s) t := by
  induction as generalizing s seen with
  | nil =>
    cases hr
    simpa [observed] using hs
  | cons a as ih =>
    obtain ⟨u, hu, hrest⟩ := run_cons_some hr
    obtain ⟨ha, has⟩ := (along_cons hu).mp hC
    rw [observed_cons hu, ← List.append_assoc]
    exact ih has hrest (hstep seen s a u hs ha hu)

theorem observed_append {obs : σ → α → List β} {as bs : List α} {s t : σ}
    (h : run step as s = some t) :
    observed step obs (as ++ bs) s = observed step obs as s ++ observed step obs bs t := by
  induction as generalizing s with
  | nil =>
    cases h
    rfl
  | cons a as ih =>
    obtain ⟨u, hu, hrest⟩ := run_cons_some h
    rw [List.cons_append, observed_cons hu, observed_cons hu, ih hrest, List.append_assoc]

/-- What is observed in a run is observed at one of its steps. -/
theorem mem_observed {obs : σ → α → List β} {as : List α} {s : σ} {x : β}
    (h : x ∈ observed step obs as s) :
    ∃ pre a post t u, as = pre ++ a :: post ∧ run step pre s = some t ∧ step t a = some u ∧
      x ∈ obs t a := by
  induction as generalizing s with
  | nil => cases h
  | cons a as ih =>
    cases hs : step s a with
    | none => simp [observed, hs] at h
    | some u =>
      rw [observed_cons hs] at h
      obtain h | h := List.mem_append.mp h
      · exact ⟨[], a, as, s, u, rfl, rfl, hs, h⟩
      · obtain ⟨pre, b, post, t, v, rfl, ht, hv, hx⟩ := ih h
        exact ⟨a :: pre, b, post, t, v, rfl, by rw [run_cons, hs]; exact ht, hv, hx⟩

/-- The system with a history variable that collects what an observer sees. -/
def recorded (step : σ → α → Option σ) (obs : σ → α → List β) (h : List β × σ) (a : α) :
    Option (List β × σ) :=
  (step h.2 a).map fun t => (h.1 ++ obs h.2 a, t)

/-- Forward simulation: if each step from the states in `I` is a run of another system under
`f`, with the picked part of the observations, each run is. -/
theorem simulation {γ δ : Type} {step' : τ → β → Option τ} {f : σ → τ} {I : σ → Prop}
    {obs : σ → α → List γ} {obs' : τ → β → List δ} {pick : γ → Option δ}
    (hI : ∀ s a t, I s → step s a = some t → I t)
    (hstep : ∀ s a t, I s → step s a = some t → ∃ bs, run step' bs (f s) = some (f t) ∧
      observed step' obs' bs (f s) = (obs s a).filterMap pick)
    {as : List α} {s t : σ} (hr : run step as s = some t) (hs : I s) :
    ∃ bs, run step' bs (f s) = some (f t) ∧
      observed step' obs' bs (f s) = (observed step obs as s).filterMap pick := by
  induction as generalizing s with
  | nil =>
    cases hr
    exact ⟨[], rfl, rfl⟩
  | cons a as ih =>
    obtain ⟨u, hu, hrest⟩ := run_cons_some hr
    obtain ⟨bs, hbs, hseen⟩ := hstep s a u hs hu
    obtain ⟨cs, hcs, hseen'⟩ := ih hrest (hI s a u hs hu)
    refine ⟨bs ++ cs, run_append_some hbs hcs, ?_⟩
    rw [observed_append hbs, observed_cons hu, List.filterMap_append, hseen, hseen']

end Run
