import AgentRuntime.Local.Completions
import AgentRuntime.Service.Reports

/-!
# Every completion is reported

The callback finds an execution for each task that completes, because the claim
that led to its submission has written one. So a task that is terminal has been
reported, unless its completion is with a thread that is still to call the
callback.
-/
namespace AgentRuntime

namespace WorkerService

open LocalSystem (Reporter course completion? leaves stateOf)

variable {registry : HandlerRegistry} {workerIds : List WorkerID} {capacity : ResourceSet}
  {s u : State} {a : Action} {seen : List Event}

/-! ## The executions of the tasks -/

/-- A task has an entry once a request has claimed it, and the entry is that of a request. -/
structure Named (s : State) : Prop where
  entry : ∀ t e, s.taskExecutions.lookup t = some e → ∃ n, identity? s n = some (e, t)
  claimer : ∀ n l, s.launches.lookup n = some l → l.isClaimer = true →
    ∃ e, s.taskExecutions.lookup l.spec.id = some e
  listed : ∀ t x, stateOf s.runtime.taskManager t = some x →
    ∃ e, s.taskExecutions.lookup t = some e

theorem named_initial {reporter : Bool} :
    Named (.initial registry workerIds capacity reporter) where
  entry t e h := by simp [State.initial] at h
  claimer n l h := by simp [State.initial] at h
  listed t x h := by simp [State.initial, LocalSystem.State.initial, stateOf] at h

/-- An entry is never taken out. -/
theorem entry_after (h : Effect s a u) {t : TaskID} (he : ∃ e, s.taskExecutions.lookup t = some e) :
    ∃ e, u.taskExecutions.lookup t = some e := by
  obtain hsame | ⟨n, l, -, -, -, -, -, hinsert⟩ := step_taskExecutions h
  · rw [hsame]
    exact he
  · rw [hinsert, UnorderedMap.lookup_insert_eq]
    split
    · exact ⟨_, rfl⟩
    · exact he

/-- A request that has claimed its execution had done so before, or claims it in this step. -/
theorem claimer_before (h : Effect s a u) {n : Nat} {l : Launch}
    (hl : u.launches.lookup n = some l) (hc : l.isClaimer = true) :
    (∃ l', s.launches.lookup n = some l' ∧ l'.isClaimer = true ∧ l'.spec = l.spec) ∨
      u.taskExecutions.lookup l.spec.id = some l.executionId := by
  have keep : ∀ {m : Nat} {l₀ l₁ : Launch}, s.launches.lookup m = some l₀ →
      l₁.spec = l₀.spec → (l₁.isClaimer = true → l₀.isClaimer = true) →
      (if n = m then some l₁ else s.launches.lookup n) = some l →
      ∃ l', s.launches.lookup n = some l' ∧ l'.isClaimer = true ∧ l'.spec = l.spec := by
    intro m l₀ l₁ hm hspec hclaimer hif
    split at hif
    · rename_i hn
      cases hif
      exact ⟨l₀, hn ▸ hm, hclaimer hc, hspec.symm⟩
    · exact ⟨l, hif, hc, rfl⟩
  cases h with
  | @begin m task l₁ hnew hphase =>
    rw [lookup_setLaunch] at hl
    split at hl
    · cases hl
      simp [Launch.isClaimer, hphase] at hc
    · exact .inl ⟨l, hl, hc, rfl⟩
  | reject hm | replay hm =>
    rw [lookup_setLaunch] at hl
    exact .inl (keep hm (by rfl) (by simp [Launch.isClaimer]) hl)
  | @claim m l₀ hm =>
    rw [lookup_setLaunch] at hl
    split at hl
    · cases hl
      exact .inr (by simp [State.setLaunch])
    · exact .inl ⟨l, hl, hc, rfl⟩
  | submit hm hphase | store hm hphase =>
    rw [lookup_setLaunch] at hl
    exact .inl (keep hm (by rfl) (by simp [Launch.isClaimer, hphase]) hl)
  | undecoded | cancel | cancelRuntime | unreported | report | callbackReturn | runtime | leave =>
    exact .inl ⟨l, hl, hc, rfl⟩

theorem step_named (h : Effect s a u) (hi : Ledger s) (hn : Named s) : Named u where
  entry t e he := by
    obtain hsame | ⟨n, l, rfl, hl, -, -, -, hinsert⟩ := step_taskExecutions h
    · rw [hsame] at he
      obtain ⟨n, hid⟩ := hn.entry t e he
      exact ⟨n, identity_after h hid⟩
    · rw [hinsert, UnorderedMap.lookup_insert_eq] at he
      split at he
      · rename_i ht
        cases he
        exact ⟨n, identity_after h (ht ▸ identity_of_lookup hl)⟩
      · obtain ⟨m, hid⟩ := hn.entry t e he
        exact ⟨m, identity_after h hid⟩
  claimer n l hl hc := by
    obtain ⟨l', hl', hc', hspec⟩ | hentry := claimer_before h hl hc
    · rw [← hspec]
      exact entry_after h (hn.claimer n l' hl' hc')
    · exact ⟨_, hentry⟩
  listed t y hy := by
    apply entry_after h
    obtain ⟨hsame, -⟩ | ⟨b, hstep, -⟩ := step_runtime h
    · rw [hsame] at hy
      exact hn.listed t y hy
    · have htask := LocalSystem.step_taskStep hstep hi.sound.inv t
      rw [hy] at htask
      generalize hx : stateOf s.runtime.taskManager t = x at htask
      cases htask with
      | stay => exact hn.listed t y hx
      | @register spec handler hsubmit hid =>
        -- the record is made for a request that has claimed the task
        obtain ⟨k, hlife⟩ := hsubmit
        have hcourse : course s.runtime k = .checked spec :=
          LocalSystem.course_of_submitting hi.sound.submitting
            (by simp [LocalSystem.State.submitting?, LocalSystem.submitting?, hlife])
        have hlinked := hi.linked k
        rw [hcourse] at hlinked
        obtain ⟨l, hl, hphase, rfl⟩ := hlinked.inside rfl
        rw [← hid]
        exact hn.claimer k l hl (by simp [Launch.isClaimer, hphase])
      | queue => exact hn.listed t _ hx
      | advance => exact hn.listed t _ hx

/-! ## The calls of the callback -/

/-- A thread that has called the callback is not back from it. -/
def Calling (s : State) : Prop := ∀ r ∈ s.called, (completion? s.runtime r).isSome = true

theorem calling_initial {reporter : Bool} :
    Calling (.initial registry workerIds capacity reporter) := by
  intro r hr
  cases hr

/-- A thread keeps its completion until it goes on. -/
theorem completion_after {runtime : LocalSystem.State} {b : LocalSystem.Action}
    (hstep : LocalSystem.step s.runtime b = some runtime) (hi : Ledger s) {r : Reporter}
    (hr : (completion? s.runtime r).isSome = true) (hstays : leaves s.runtime b ≠ some r) :
    (completion? runtime r).isSome = true := by
  have hcompletion := LocalSystem.step_completion hstep hi.sound.inv r
  generalize completion? s.runtime r = x at hr hcompletion
  generalize completion? runtime r = y at hcompletion
  cases hcompletion with
  | stay => exact hr
  | start => rfl
  | leave hleaves => exact absurd hleaves hstays

theorem step_calling (h : Effect s a u) (hi : Ledger s) (hc : Calling s) : Calling u := by
  intro r hr
  cases h with
  | unreported hcompletion | report hcompletion =>
    obtain rfl | hr := List.mem_cons.mp hr
    · simp [hcompletion]
    · exact hc r hr
  | submit _ _ hstep | cancelRuntime _ hstep =>
    exact completion_after hstep hi (hc r hr) (by simp [leaves])
  | runtime _ hstays hstep => exact completion_after hstep hi (hc r hr) (by simp [hstays])
  | leave _ hleaves _ hstep =>
    obtain ⟨hr, hne⟩ := List.mem_filter.mp hr
    refine completion_after hstep hi (hc r hr) ?_
    rw [hleaves]
    rintro ⟨⟩
    simp at hne
  | begin | undecoded | reject | replay | claim | store | cancel | callbackReturn => exact hc r hr

/-! ## The reports -/

/-- The completion of the task is with a thread that is still to call the callback. -/
def Untold (s : State) (t : TaskID) : Prop := ∃ r completion,
  completion? s.runtime r = some completion ∧ completion.taskId = t ∧ r ∉ s.called

/-- A terminal task has been reported, or it is going to be. -/
def Accounted (seen : List Event) (s : State) : Prop := ∀ t x,
  stateOf s.runtime.taskManager t = some x → x.isTerminal = true →
    Untold s t ∨ ∃ e, .reported t e ∈ seen

/-- A completion is with its thread until the callback reports it. -/
theorem untold_after (h : Effect s a u) (hi : Ledger s) (hn : Named s) {t : TaskID}
    (ht : Untold s t) : Untold u t ∨ ∃ e, .reported t e ∈ events s a := by
  obtain ⟨r, completion, hcompletion, rfl, hr⟩ := ht
  -- the thread goes on only after it has called the callback
  have runtime : ∀ {b : LocalSystem.Action} {v : LocalSystem.State},
      LocalSystem.step s.runtime b = some v →
      (∀ r', leaves s.runtime b = some r' → r' ∈ s.called) →
      completion? v r = some completion := by
    intro b v hstep hleaves
    have hkept := LocalSystem.step_completion hstep hi.sound.inv r
    rw [hcompletion] at hkept
    generalize hv : completion? v r = y at hkept
    cases hkept with
    | stay => rfl
    | leave hleave => exact absurd (hleaves r hleave) hr
  cases h with
  | @unreported r' completion' hcompletion' _ hentry =>
    -- every task in the table has an entry
    obtain ⟨x, hx, -⟩ := hi.sound.completed r' completion' hcompletion'
    obtain ⟨e, he⟩ := hn.listed _ x hx
    rw [hentry] at he
    cases he
  | @report r' completion' e hcompletion' _ hentry =>
    by_cases hsame : r = r'
    · subst hsame
      rw [hcompletion] at hcompletion'
      cases hcompletion'
      exact .inr ⟨e, by simp [events, hcompletion, hentry]⟩
    · exact .inl ⟨r, completion, hcompletion, rfl, by simp [hsame, hr]⟩
  | submit _ _ hstep | cancelRuntime _ hstep =>
    exact .inl ⟨r, completion, runtime hstep (by simp [leaves]), rfl, hr⟩
  | runtime _ hstays hstep =>
    exact .inl ⟨r, completion, runtime hstep (by simp [hstays]), rfl, hr⟩
  | leave _ hleaves hcalled hstep =>
    refine .inl ⟨r, completion, runtime hstep ?_, rfl, fun hmem => hr (List.mem_filter.mp hmem).1⟩
    intro r' hr'
    rw [hleaves] at hr'
    cases hr'
    exact hcalled
  | begin | undecoded | reject | replay | claim | store | cancel | callbackReturn =>
    exact .inl ⟨r, completion, hcompletion, rfl, hr⟩

theorem step_completionCallback (h : Effect s a u) (hi : Ledger s) :
    u.runtime.taskManager.completionCallback = s.runtime.taskManager.completionCallback := by
  obtain ⟨hsame, -⟩ | ⟨b, hstep, -⟩ := step_runtime h
  · rw [hsame]
  · exact LocalSystem.step_completionCallback hstep hi.sound.inv

theorem step_accounted (h : Effect s a u) (hi : Ledger s) (hn : Named s) (hc : Calling s)
    (hcallback : s.runtime.taskManager.completionCallback = true) (hs : Accounted seen s) :
    Accounted (seen ++ events s a) u := by
  intro t y hy hterm
  have before : ∀ {x}, stateOf s.runtime.taskManager t = some x → x.isTerminal = true →
      Untold u t ∨ ∃ e, .reported t e ∈ seen ++ events s a := by
    intro x hx hx'
    obtain huntold | ⟨e, he⟩ := hs t x hx hx'
    · obtain hkept | ⟨e, he⟩ := untold_after h hi hn huntold
      · exact .inl hkept
      · exact .inr ⟨e, List.mem_append_right _ he⟩
    · exact .inr ⟨e, List.mem_append_left _ he⟩
  obtain ⟨hsame, -⟩ | ⟨b, hstep, -⟩ := step_runtime h
  · rw [hsame] at hy
    exact before hy hterm
  · obtain hbefore | ⟨r, completion, hnone, hcompletion, ht⟩ :=
      LocalSystem.step_tells hstep hi.sound.inv hcallback hy hterm
    · exact before hbefore hterm
    · refine .inl ⟨r, completion, hcompletion, ht, fun hr => ?_⟩
      -- nobody calls the callback in the step in which the task ends
      by_cases hold : r ∈ s.called
      · have hsome := hc r hold
        rw [hnone] at hsome
        cases hsome
      · cases h with
        | unreported hcompletion' | report hcompletion' =>
          obtain rfl | hr := List.mem_cons.mp hr
          · rw [hnone] at hcompletion'
            cases hcompletion'
          · exact hold hr
        | leave => exact hold (List.mem_filter.mp hr).1
        | begin | undecoded | reject | replay | claim | submit | store | cancel | cancelRuntime
        | callbackReturn | runtime => exact hold hr

/-! ## The result -/

variable {as : List Action}

/-- What is known of every reachable state of a worker that reports its results. -/
structure Reporting (seen : List Event) (s : State) : Prop where
  ledger : Ledger s
  named : Named s
  calling : Calling s
  told : LocalSystem.Told s.runtime
  callback : s.runtime.taskManager.completionCallback = true
  accounted : Accounted seen s

theorem reporting_initial : Reporting [] (.initial registry workerIds capacity true) where
  ledger := ledger_initial registry workerIds capacity true
  named := named_initial
  calling := calling_initial
  told := LocalSystem.told_initial workerIds capacity true
  callback := rfl
  accounted t x h := by simp [State.initial, LocalSystem.State.initial, stateOf] at h

theorem step_told (h : Effect s a u) (hi : Ledger s) (ht : LocalSystem.Told s.runtime) :
    LocalSystem.Told u.runtime := by
  obtain ⟨hsame, -⟩ | ⟨b, hstep, -⟩ := step_runtime h
  · rw [hsame]
    exact ht
  · exact LocalSystem.step_told hstep hi.sound.inv ht

theorem Reporting.step (hr : Reporting seen s) (hstep : step s a = some u) :
    Reporting (seen ++ events s a) u := by
  have h := effect hstep hr.ledger.claims
  exact {
    ledger := effect_ledger h hr.ledger
    named := step_named h hr.ledger hr.named
    calling := step_calling h hr.ledger hr.calling
    told := step_told h hr.ledger hr.told
    callback := (step_completionCallback h hr.ledger).trans hr.callback
    accounted := step_accounted h hr.ledger hr.named hr.calling hr.callback hr.accounted }

theorem reporting_run (h : Run.run step as (.initial registry workerIds capacity true) = some s) :
    Reporting (observedIn as (.initial registry workerIds capacity true)) s :=
  Run.invariant_observed (C := fun _ _ => True)
    (fun _ _ _ _ hr _ hstep => hr.step hstep) (Run.along_true _ _) h reporting_initial

end WorkerService

end AgentRuntime
