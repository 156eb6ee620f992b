import AgentRuntime.Library.Fifo
import AgentRuntime.Library.Run

/-!
# A dispatcher

Jobs wait in one line for any number of servers. The first job in the line is
given to a server that is free, which starts and finishes it. A job that waits
can be withdrawn, and a job that runs can be asked to stop. Nothing here depends
on what the jobs, the servers and the outcomes are.
-/
namespace Dispatcher

variable {τ ω ρ : Type}

inductive Phase (ω ρ : Type) where
  | waiting
  | assigned (w : ω)
  | running (w : ω) (stopRequested : Bool)
  | done (outcome : ρ)

/-- The server that is busy with a job in the phase. -/
def Phase.server? : Phase ω ρ → Option ω
  | .assigned w | .running w _ => some w
  | .waiting | .done _ => none

structure State (τ ω ρ : Type) where
  line : List τ
  phase : τ → Option (Phase ω ρ)
  serving : ω → Option τ

def State.empty : State τ ω ρ := ⟨[], fun _ => none, fun _ => none⟩

inductive Action (τ ω ρ : Type) where
  | accept (t : τ)
  | assign (t : τ) (w : ω)
  | start (t : τ)
  | finish (t : τ) (outcome : ρ)
  | withdraw (t : τ) (outcome : ρ)
  | requestStop (t : τ)

/-- The line and the servers agree with the phases of the jobs. -/
structure WellFormed (s : State τ ω ρ) : Prop where
  nodup : s.line.Nodup
  waiting : ∀ t, t ∈ s.line ↔ s.phase t = some .waiting
  serving : ∀ t w, s.serving w = some t ↔ (s.phase t).bind Phase.server? = some w

theorem wellFormed_empty : WellFormed (State.empty : State τ ω ρ) where
  nodup := .nil
  waiting t := by simp [State.empty]
  serving t w := by simp [State.empty]

variable {s u : State τ ω ρ} [DecidableEq τ]

def State.setPhase (s : State τ ω ρ) (t : τ) (phase : Phase ω ρ) : State τ ω ρ :=
  { s with phase := Function.update s.phase t (some phase) }

theorem phase_setPhase (s : State τ ω ρ) (t t' : τ) (phase : Phase ω ρ) :
    (s.setPhase t phase).phase t' = if t' = t then some phase else s.phase t' := by
  simp [State.setPhase, Function.update_apply]

/-- A job that does not wait goes on without coming into the line or leaving it. -/
theorem WellFormed.move (h : WellFormed s) {t : τ} {old new : Phase ω ρ}
    (hold : s.phase t = some old) (hwas : old ≠ .waiting) (hnew : new ≠ .waiting)
    {serving : ω → Option τ}
    (hserving : ∀ t' w, serving w = some t' ↔
      ((s.setPhase t new).phase t').bind Phase.server? = some w) :
    WellFormed { s.setPhase t new with serving := serving } where
  nodup := h.nodup
  waiting t' := by
    simp only [phase_setPhase]
    split
    · rename_i heq
      subst heq
      have hnot : ¬ t' ∈ s.line := by
        rw [h.waiting, hold]
        simpa using hwas
      simpa [State.setPhase, hnew] using hnot
    · exact h.waiting t'
  serving := hserving

/-- A job that leaves the line for a phase in which it is served by nobody, or by a server
that was free. -/
theorem WellFormed.leave (h : WellFormed s) {t : τ} {new : Phase ω ρ}
    (hold : s.phase t = some .waiting) (hnew : new ≠ .waiting) {serving : ω → Option τ}
    (hserving : ∀ t' w, serving w = some t' ↔
      ((s.setPhase t new).phase t').bind Phase.server? = some w) :
    WellFormed { s.setPhase t new with line := s.line.erase t, serving := serving } where
  nodup := h.nodup.erase t
  waiting t' := by
    simp only [phase_setPhase]
    split
    · rename_i heq
      subst heq
      simpa [hnew] using h.nodup.not_mem_erase
    · rename_i hne
      rw [List.mem_erase_of_ne hne]
      exact h.waiting t'
  serving := hserving

/-- No server is given or taken a job. -/
theorem WellFormed.serving_setPhase (h : WellFormed s) {t : τ} {new : Phase ω ρ}
    (hsame : new.server? = (s.phase t).bind Phase.server?) (t' : τ) (w : ω) :
    s.serving w = some t' ↔ ((s.setPhase t new).phase t').bind Phase.server? = some w := by
  rw [h.serving, phase_setPhase]
  split
  · rename_i heq
    rw [heq, ← hsame]
    rfl
  · rfl

variable [DecidableEq ω]

def step (s : State τ ω ρ) : Action τ ω ρ → Option (State τ ω ρ)
  | .accept t =>
    match s.phase t with
    | none => some { s.setPhase t .waiting with line := s.line ++ [t] }
    | some _ => none
  | .assign t w =>
    match s.line, s.serving w with
    | first :: rest, none =>
      if first = t then
        some { s.setPhase t (.assigned w) with
          line := rest, serving := Function.update s.serving w (some t) }
      else none
    | _, _ => none
  | .start t =>
    match s.phase t with
    | some (.assigned w) => some (s.setPhase t (.running w false))
    | _ => none
  | .finish t outcome =>
    match s.phase t with
    | some (.running w _) =>
      some { s.setPhase t (.done outcome) with serving := Function.update s.serving w none }
    | _ => none
  | .withdraw t outcome =>
    match s.phase t with
    | some .waiting => some { s.setPhase t (.done outcome) with line := s.line.erase t }
    | _ => none
  | .requestStop t =>
    match s.phase t with
    | some (.running w _) => some (s.setPhase t (.running w true))
    | _ => none

/-- Every step is taken from the phase it names. -/
theorem step_cases {a : Action τ ω ρ} (h : step s a = some u) :
    (∃ t, a = .accept t ∧ s.phase t = none ∧
      u = { s.setPhase t .waiting with line := s.line ++ [t] }) ∨
    (∃ t w rest, a = .assign t w ∧ s.line = t :: rest ∧ s.serving w = none ∧
      u = { s.setPhase t (.assigned w) with
        line := rest, serving := Function.update s.serving w (some t) }) ∨
    (∃ t w, a = .start t ∧ s.phase t = some (.assigned w) ∧
      u = s.setPhase t (.running w false)) ∨
    (∃ t w stop outcome, a = .finish t outcome ∧ s.phase t = some (.running w stop) ∧
      u = { s.setPhase t (.done outcome) with serving := Function.update s.serving w none }) ∨
    (∃ t outcome, a = .withdraw t outcome ∧ s.phase t = some .waiting ∧
      u = { s.setPhase t (.done outcome) with line := s.line.erase t }) ∨
    ∃ t w stop, a = .requestStop t ∧ s.phase t = some (.running w stop) ∧
      u = s.setPhase t (.running w true) := by
  cases a with
  | accept t =>
    simp only [step] at h
    split at h
    · cases h
      exact .inl ⟨t, rfl, by assumption, rfl⟩
    · cases h
  | assign t w =>
    simp only [step] at h
    split at h
    · split at h
      · rename_i hline hfree heq
        subst heq
        cases h
        exact .inr (.inl ⟨_, w, _, rfl, hline, hfree, rfl⟩)
      · cases h
    · cases h
  | start t =>
    simp only [step] at h
    split at h
    · cases h
      exact .inr (.inr (.inl ⟨t, _, rfl, by assumption, rfl⟩))
    · cases h
  | finish t outcome =>
    simp only [step] at h
    split at h
    · cases h
      exact .inr (.inr (.inr (.inl ⟨t, _, _, outcome, rfl, by assumption, rfl⟩)))
    · cases h
  | withdraw t outcome =>
    simp only [step] at h
    split at h
    · cases h
      exact .inr (.inr (.inr (.inr (.inl ⟨t, outcome, rfl, by assumption, rfl⟩))))
    · cases h
  | requestStop t =>
    simp only [step] at h
    split at h
    · cases h
      exact .inr (.inr (.inr (.inr (.inr ⟨t, _, _, rfl, by assumption, rfl⟩))))
    · cases h

theorem step_wellFormed {a : Action τ ω ρ} (h : step s a = some u) (hw : WellFormed s) :
    WellFormed u := by
  obtain ⟨t, -, hnew, rfl⟩ | ⟨t, w, rest, -, hline, hfree, rfl⟩ | ⟨t, w, -, hold, rfl⟩ |
    ⟨t, w, stop, outcome, -, hold, rfl⟩ | ⟨t, outcome, -, hold, rfl⟩ |
    ⟨t, w, stop, -, hold, rfl⟩ := step_cases h
  · have hnot : t ∉ s.line := by
      rw [hw.waiting, hnew]
      simp
    refine ⟨?_, fun t' => ?_, fun t' w => ?_⟩
    · simp only [List.nodup_append, hw.nodup, true_and, List.nodup_cons, List.not_mem_nil,
        not_false_eq_true, List.nodup_nil, and_self, List.mem_singleton]
      rintro a ha b rfl rfl
      exact hnot ha
    · simp only [phase_setPhase, List.mem_append, List.mem_singleton]
      split
      · rename_i heq
        simp [heq]
      · rename_i hne
        simp [hne, hw.waiting t']
    · exact hw.serving_setPhase (by rw [hnew]; rfl) t' w
  · have hold : s.phase t = some .waiting := (hw.waiting t).mp (by simp [hline])
    have herase : s.line.erase t = rest := by simp [hline]
    rw [← herase]
    refine hw.leave hold (by simp) (fun t' w' => ?_)
    simp only [phase_setPhase, Function.update_apply]
    by_cases ht : t' = t <;> by_cases hw' : w' = w
    · simp [ht, hw', Phase.server?]
    · have hno : s.serving w' ≠ some t := by
        rw [Ne, hw.serving, hold]
        simp [Phase.server?]
      simp [ht, hw', Phase.server?, hno, Ne.symm hw']
    · have hno : (s.phase t').bind Phase.server? ≠ some w := by
        rw [Ne, ← hw.serving, hfree]
        simp
      simp [ht, hw', hno, Ne.symm ht]
    · simp [ht, hw', hw.serving]
  · exact hw.move hold (by simp) (by simp)
      (hw.serving_setPhase (by rw [hold]; rfl))
  · refine hw.move hold (by simp) (by simp) (fun t' w' => ?_)
    have hserved : s.serving w = some t := (hw.serving t w).mpr (by rw [hold]; rfl)
    simp only [phase_setPhase, Function.update_apply]
    by_cases ht : t' = t <;> by_cases hw' : w' = w
    · simp [ht, hw', Phase.server?]
    · have hno : s.serving w' ≠ some t := by
        rw [Ne, hw.serving, hold]
        simp [Phase.server?, Ne.symm hw']
      simp [ht, hw', Phase.server?, hno]
    · have hno : (s.phase t').bind Phase.server? ≠ some w := by
        rw [Ne, ← hw.serving, hserved]
        simp [Ne.symm ht]
      simp [ht, hw', hno]
    · simp [ht, hw', hw.serving]
  · exact hw.leave hold (by simp) (hw.serving_setPhase (by rw [hold]; rfl))
  · exact hw.move hold (by simp) (by simp)
      (hw.serving_setPhase (by rw [hold]; rfl))

/-! ## The end of a job -/

/-- The step ends the job. -/
def Action.ends (t : τ) : Action τ ω ρ → Prop
  | .finish t' _ | .withdraw t' _ => t' = t
  | _ => False

omit [DecidableEq ω] in
/-- A job that is not done goes on, perhaps to its end. -/
theorem done_setPhase {t' : τ} {new : Phase ω ρ} (hlive : ∀ outcome, s.phase t' ≠ some (.done outcome))
    {ends : Prop} (t : τ) (hends : ends ↔ t' = t ∧ ∃ outcome, new = .done outcome) :
    (∀ outcome, s.phase t = some (.done outcome) →
      (s.setPhase t' new).phase t = some (.done outcome)) ∧
    ((∃ outcome, (s.setPhase t' new).phase t = some (.done outcome)) ↔
      (∃ outcome, s.phase t = some (.done outcome)) ∨ ends) := by
  rw [hends]
  simp only [phase_setPhase]
  by_cases ht : t = t'
  · subst ht
    simp [hlive]
  · simp [ht, Ne.symm ht]

/-- A job that is done stays as it is, and it is done by a step that ends it. -/
theorem step_done {a : Action τ ω ρ} (h : step s a = some u) (hw : WellFormed s) (t : τ) :
    (∀ outcome, s.phase t = some (.done outcome) → u.phase t = some (.done outcome)) ∧
    ((∃ outcome, u.phase t = some (.done outcome)) ↔
      (∃ outcome, s.phase t = some (.done outcome)) ∨ a.ends t) := by
  obtain ⟨t', rfl, hold, rfl⟩ | ⟨t', w, rest, rfl, hline, hfree, rfl⟩ | ⟨t', w, rfl, hold, rfl⟩ |
    ⟨t', w, stop, outcome, rfl, hold, rfl⟩ | ⟨t', outcome, rfl, hold, rfl⟩ |
    ⟨t', w, stop, rfl, hold, rfl⟩ := step_cases h
  · exact done_setPhase (by simp [hold]) t (by simp [Action.ends])
  · have hold : s.phase t' = some .waiting := (hw.waiting t').mp (by simp [hline])
    exact done_setPhase (by simp [hold]) t (by simp [Action.ends])
  · exact done_setPhase (by simp [hold]) t (by simp [Action.ends])
  · exact done_setPhase (by simp [hold]) t (by simp [Action.ends])
  · exact done_setPhase (by simp [hold]) t (by simp [Action.ends])
  · exact done_setPhase (by simp [hold]) t (by simp [Action.ends])

/-- The same for a run. -/
theorem run_done {as : List (Action τ ω ρ)} (h : Run.run step as s = some u) (hw : WellFormed s)
    (t : τ) :
    (∀ outcome, s.phase t = some (.done outcome) → u.phase t = some (.done outcome)) ∧
    ((∃ outcome, u.phase t = some (.done outcome)) ↔
      (∃ outcome, s.phase t = some (.done outcome)) ∨ ∃ a ∈ as, a.ends t) := by
  induction as generalizing s with
  | nil =>
    cases h
    simp
  | cons a as ih =>
    obtain ⟨v, hv, hrest⟩ := Run.run_cons_some h
    obtain ⟨hstays, hiff⟩ := step_done hv hw t
    obtain ⟨hstays', hiff'⟩ := ih hrest (step_wellFormed hv hw)
    refine ⟨fun outcome hd => hstays' outcome (hstays outcome hd), ?_⟩
    rw [hiff', hiff, or_assoc]
    simp

/-! ## The order of service -/

def accepted (as : List (Action τ ω ρ)) : List τ :=
  as.filterMap fun
    | .accept t => some t
    | _ => none

def withdrawn (as : List (Action τ ω ρ)) : List τ :=
  as.filterMap fun
    | .withdraw t _ => some t
    | _ => none

def assigned (as : List (Action τ ω ρ)) : List τ :=
  as.filterMap fun
    | .assign t _ => some t
    | _ => none

def finished (as : List (Action τ ω ρ)) : List τ :=
  as.filterMap fun
    | .finish t _ => some t
    | _ => none

/-- The jobs of a run come out of the line in the order in which they were accepted. -/
structure Served (seen : List (Action τ ω ρ)) (s : State τ ω ρ) : Prop where
  wellFormed : WellFormed s
  inOrder : Fifo.InOrder (accepted seen) (withdrawn seen) (assigned seen) s.line
  known : ∀ t ∈ accepted seen, s.phase t ≠ none

omit [DecidableEq ω] in
theorem served_empty : Served [] (State.empty : State τ ω ρ) :=
  ⟨wellFormed_empty, .nil, fun t h => by cases h⟩

theorem step_served {seen : List (Action τ ω ρ)} {a : Action τ ω ρ} (h : step s a = some u)
    (hs : Served seen s) : Served (seen ++ [a]) u := by
  have hw := step_wellFormed h hs.wellFormed
  -- a job that is known stays known
  have keeps : ∀ {t : τ} {phase : Phase ω ρ}, ∀ t' ∈ accepted seen,
      (s.setPhase t phase).phase t' ≠ none := by
    intro t phase t' hmem
    rw [phase_setPhase]
    split
    · simp
    · exact hs.known t' hmem
  obtain ⟨t, rfl, hnew, rfl⟩ | ⟨t, w, rest, rfl, hline, -, rfl⟩ | ⟨t, w, rfl, -, rfl⟩ |
    ⟨t, w, stop, outcome, rfl, -, rfl⟩ | ⟨t, outcome, rfl, hold, rfl⟩ |
    ⟨t, w, stop, rfl, -, rfl⟩ := step_cases h
  · have hfresh : t ∉ accepted seen := fun hmem => hs.known t hmem hnew
    refine ⟨hw, ?_, fun t' hmem => ?_⟩
    · simpa [accepted, withdrawn, assigned] using hs.inOrder.push hfresh
    · simp only [accepted, List.filterMap_append, List.filterMap_cons, List.filterMap_nil,
        List.mem_append, List.mem_singleton] at hmem
      obtain hmem | rfl := hmem
      · exact keeps t' hmem
      · simp [phase_setPhase]
  · have hpop := hs.inOrder
    rw [hline] at hpop
    exact ⟨hw, by simpa [accepted, withdrawn, assigned] using hpop.pop,
      fun t' hmem => keeps t' (by simpa [accepted] using hmem)⟩
  · exact ⟨hw, by simpa [State.setPhase, accepted, withdrawn, assigned] using hs.inOrder,
      fun t' hmem => keeps t' (by simpa [accepted] using hmem)⟩
  · exact ⟨hw, by simpa [State.setPhase, accepted, withdrawn, assigned] using hs.inOrder,
      fun t' hmem => keeps t' (by simpa [accepted] using hmem)⟩
  · have hmem := (hs.wellFormed.waiting t).mpr hold
    exact ⟨hw, by simpa [accepted, withdrawn, assigned] using hs.inOrder.drop hmem,
      fun t' hmem => keeps t' (by simpa [accepted] using hmem)⟩
  · exact ⟨hw, by simpa [State.setPhase, accepted, withdrawn, assigned] using hs.inOrder,
      fun t' hmem => keeps t' (by simpa [accepted] using hmem)⟩

/-- Jobs are given to one server alone. -/
def Only (w : ω) : Action τ ω ρ → Prop
  | .assign _ w' => w' = w
  | _ => True

/-- What a single server has been given it has finished, but for the job it is busy with. -/
structure Alone (w : ω) (seen : List (Action τ ω ρ)) (s : State τ ω ρ) : Prop where
  others : ∀ w' ≠ w, s.serving w' = none
  finished : assigned seen = finished seen ++ (s.serving w).toList

theorem step_alone {w : ω} {seen : List (Action τ ω ρ)} {a : Action τ ω ρ}
    (h : step s a = some u) (ha : Only w a) (hw : WellFormed s) (hs : Alone w seen s) :
    Alone w (seen ++ [a]) u := by
  obtain ⟨t, rfl, -, rfl⟩ | ⟨t, w', rest, rfl, -, hfree, rfl⟩ | ⟨t, w', rfl, -, rfl⟩ |
    ⟨t, w', stop, outcome, rfl, hold, rfl⟩ | ⟨t, outcome, rfl, -, rfl⟩ |
    ⟨t, w', stop, rfl, -, rfl⟩ := step_cases h
  · exact ⟨hs.others, by simpa [State.setPhase, assigned, Dispatcher.finished] using hs.finished⟩
  · obtain rfl : w' = w := ha
    refine ⟨fun w'' hne => ?_, ?_⟩
    · simp [hne, hs.others w'' hne]
    · have hdone := hs.finished
      rw [hfree] at hdone
      simp only [assigned, Dispatcher.finished, Option.toList_none, List.append_nil] at hdone
      simp [assigned, Dispatcher.finished, hdone]
  · exact ⟨hs.others, by simpa [State.setPhase, assigned, Dispatcher.finished] using hs.finished⟩
  · -- the server that finishes is the one that was given the job
    have hserving : s.serving w' = some t := (hw.serving t w').mpr (by rw [hold]; rfl)
    obtain rfl : w' = w := by
      by_contra hne
      rw [hs.others w' hne] at hserving
      cases hserving
    refine ⟨fun w'' hne => ?_, ?_⟩
    · simp [hne, hs.others w'' hne]
    · have hdone := hs.finished
      rw [hserving] at hdone
      simpa [State.setPhase, assigned, Dispatcher.finished] using hdone
  · exact ⟨hs.others, by simpa [State.setPhase, assigned, Dispatcher.finished] using hs.finished⟩
  · exact ⟨hs.others, by simpa [State.setPhase, assigned, Dispatcher.finished] using hs.finished⟩

/-- A single server finishes the jobs one by one, in the order in which they were accepted. -/
theorem one_by_one {w : ω} {as : List (Action τ ω ρ)} (h : Run.run step as .empty = some s)
    (honly : ∀ a ∈ as, Only w a) :
    (accepted as).filter (fun t => t ∉ withdrawn as) =
      finished as ++ (s.serving w).toList ++ s.line ∧ ∀ w' ≠ w, s.serving w' = none := by
  have honly' : Run.Along step (fun _ a => Only w a) as State.empty := by
    rw [Run.along_iff]
    intro pre a post _ heq _
    exact honly a (by simp [heq])
  have hkept : ∀ (seen : List (Action τ ω ρ)) (s : State τ ω ρ) (a : Action τ ω ρ)
      (u : State τ ω ρ), Served seen s ∧ Alone w seen s → Only w a → step s a = some u →
      Served (seen ++ [a]) u ∧ Alone w (seen ++ [a]) u := fun seen s a u hs ha hstep =>
    ⟨step_served hstep hs.1, step_alone hstep ha hs.1.wellFormed hs.2⟩
  have hempty : Alone w [] (State.empty : State τ ω ρ) := ⟨fun _ _ => rfl, rfl⟩
  obtain ⟨hserved, halone⟩ := Run.invariant_observed hkept honly' h ⟨served_empty, hempty⟩
  rw [List.nil_append, Run.observed_labels h] at hserved halone
  exact ⟨by rw [hserved.inOrder.order, halone.finished], halone.others⟩

end Dispatcher
