import AgentRuntime.Service.Requests

/-!
# The execution under which a completion is reported

The callback finds the execution of a task in a map that each claim overwrites.
It finds the right one as long as no claim names a task that is still to be
reported.
-/
namespace AgentRuntime

namespace WorkerService

open LocalSystem (Reporter course completion? stateOf)

/-! ## Which reports are right -/

/-- Each report names the one execution whose submission of the task was accepted. -/
def ReportsMatch (seen : List Event) (s : State) : Prop := ∀ t e, .reported t e ∈ seen →
  (∃ n, Accepted s n e t) ∧ ∀ n e', Accepted s n e' t → e' = e

/-! ## When they are -/

/-- The thread has a completion of the task and has not read `task_executions_`. -/
def isUnread (s : State) (t : TaskID) (r : Reporter) : Bool :=
  (completion? s.runtime r).any (fun completion => decide (completion.taskId = t)) &&
    decide (r ∉ s.called)

/-- The task is accepted and not terminal, or its completion is still to be looked up. -/
def isLive (s : State) (t : TaskID) : Bool :=
  (stateOf s.runtime.taskManager t).any ExecutionState.isActive || isUnread s t .cancel ||
    s.runtime.pool.workerIds.any (fun w => isUnread s t (.worker w))

/-- A claim names no live task, and the execution that `task_executions_` has for a task when
it is queued is that of the request that submits it. -/
def executionsFollow (s : State) : Action → Bool
  | .launchClaim n =>
    match s.launches.lookup n with
    | some l => (s.executions.lookup l.executionId).isSome || !isLive s l.spec.id
    | none => true
  | .runtime (.call .enqueueMark) =>
    match s.runtime.holder with
    | some (.enqueueMark n t) =>
      decide (s.taskExecutions.lookup t = (s.launches.lookup n).map Launch.executionId)
    | _ => true
  | _ => true

theorem isLive_iff {s : State} (hi : LocalSystem.Inv s.runtime) (t : TaskID) :
    isLive s t = true ↔ (∃ x, stateOf s.runtime.taskManager t = some x ∧ x.isActive = true) ∨
      ∃ r completion, completion? s.runtime r = some completion ∧ completion.taskId = t ∧
        r ∉ s.called := by
  have hunread : ∀ r, isUnread s t r = true ↔ ∃ completion,
      completion? s.runtime r = some completion ∧ completion.taskId = t ∧ r ∉ s.called := by
    intro r
    simp only [isUnread, Bool.and_eq_true, decide_eq_true_eq, Option.any_eq_true]
    constructor
    · rintro ⟨⟨completion, hc, ht⟩, hr⟩
      exact ⟨completion, hc, ht, hr⟩
    · rintro ⟨completion, hc, ht, hr⟩
      exact ⟨⟨completion, hc, ht⟩, hr⟩
  simp only [isLive, Bool.or_eq_true, Option.any_eq_true, List.any_eq_true]
  constructor
  · rintro ((hactive | hcancel) | ⟨w, -, hw⟩)
    · exact .inl hactive
    · exact .inr ⟨.cancel, (hunread _).mp hcancel⟩
    · exact .inr ⟨.worker w, (hunread _).mp hw⟩
  · rintro (hactive | ⟨r, hr⟩)
    · exact .inl (.inl hactive)
    · cases r with
      | cancel => exact .inl (.inr ((hunread _).mpr hr))
      | worker w =>
        -- a thread with a completion belongs to a worker that was started
        refine .inr ⟨w, hi.slots.listed w ?_, (hunread _).mpr hr⟩
        cases hstarted : (s.runtime.pool.workers w).started with
        | true => rfl
        | false =>
          obtain ⟨completion, hc, -⟩ := hr
          simp only [completion?, LocalSystem.State.worker,
            ((hi.slots.wellFormed w).down hstarted).2] at hc
          cases hc

/-! ## The map of executions -/

variable {registry : HandlerRegistry} {workerIds : List WorkerID} {capacity : ResourceSet}
  {reporter : Bool} {s u : State} {a : Action} {seen : List Event}

/-- Only a claim writes to `task_executions_`. -/
theorem step_taskExecutions (h : Effect s a u) : u.taskExecutions = s.taskExecutions ∨
    ∃ n l, a = .launchClaim n ∧ s.launches.lookup n = some l ∧
      s.executions.lookup l.executionId = none ∧ u.runtime = s.runtime ∧ u.called = s.called ∧
      u.taskExecutions = s.taskExecutions.insert l.spec.id l.executionId := by
  cases h with
  | claim hl hphase hentry => exact .inr ⟨_, _, rfl, hl, hentry, rfl, rfl, rfl⟩
  | begin | undecoded | reject | replay | submit | store | cancel | cancelRuntime | unreported
  | report | callbackReturn | runtime | leave => exact .inl rfl

/-- A reporter is forgotten when it goes on, and at that step it has no completion any more. -/
theorem step_called (h : Effect s a u) {r : Reporter} (hr : r ∈ s.called) (hu : r ∉ u.called) :
    completion? u.runtime r = none := by
  cases h with
  | @leave b r' runtime hcall hleaves hcalled hstep =>
    have he : r = r' := by
      by_contra hne
      exact hu (List.mem_filter.mpr ⟨hr, by simpa using hne⟩)
    subst he
    exact LocalSystem.leaves_completion hstep hleaves
  | unreported | report => exact absurd (List.mem_cons_of_mem _ hr) hu
  | begin | undecoded | reject | replay | claim | submit | store | cancel | cancelRuntime
  | callbackReturn | runtime => exact absurd hr hu

/-- A task that comes to life is queued in this step. -/
theorem step_live (h : Effect s a u) (hi : Ledger s) {t : TaskID} (hl : isLive u t = true) :
    isLive s t = true ∨ ∃ b, LocalSystem.step s.runtime b = some u.runtime ∧
      stateOf s.runtime.taskManager t = some .pending ∧
      stateOf u.runtime.taskManager t = some .queued := by
  have hinv := (step_sound h hi.sound).inv
  -- whoever had called the callback has no completion now
  have hcalled : ∀ r completion, completion? u.runtime r = some completion → r ∉ u.called →
      r ∉ s.called := by
    intro r completion hc hu hr
    rw [step_called h hr hu] at hc
    cases hc
  rw [isLive_iff hi.sound.inv]
  obtain ⟨hsame, -⟩ | ⟨b, hstep, -⟩ := step_runtime h
  · obtain hactive | ⟨r, completion, hc, ht, hr⟩ := (isLive_iff hinv t).mp hl
    · rw [hsame] at hactive
      exact .inl (.inl hactive)
    · have hr' := hcalled r completion hc hr
      rw [hsame] at hc
      exact .inl (.inr ⟨r, completion, hc, ht, hr'⟩)
  · obtain ⟨y, hy, hactive⟩ | ⟨r, completion, hc, ht, hr⟩ := (isLive_iff hinv t).mp hl
    · have htask := LocalSystem.step_taskStep hstep hi.sound.inv t
      rw [hy] at htask
      generalize hx : stateOf s.runtime.taskManager t = x at htask
      cases htask with
      | stay => exact .inl (.inl ⟨y, rfl, hactive⟩)
      | register => cases hactive
      | queue => exact .inr ⟨b, hstep, rfl, hy⟩
      | advance hactive' => exact .inl (.inl ⟨_, rfl, hactive'⟩)
    · have hr' := hcalled r completion hc hr
      have hcompletion := LocalSystem.step_completion hstep hi.sound.inv r
      rw [hc] at hcompletion
      generalize hx : completion? s.runtime r = x at hcompletion
      cases hcompletion with
      | stay => exact .inl (.inr ⟨r, completion, hx, ht, hr'⟩)
      | start hactive hx' =>
        subst ht
        exact .inl (.inl ⟨_, hactive, hx'⟩)

/-- While a task is live, `task_executions_` names the execution of its request. -/
def Current (s : State) : Prop := ∀ n e t, identity? s n = some (e, t) →
  (course s.runtime n).isAccepted = true → isLive s t = true →
  s.taskExecutions.lookup t = some e

theorem step_current (h : Effect s a u) (hi : Ledger s) (hC : executionsFollow s a = true)
    (ho : Owned s) (hcur : Current s) : Current u := by
  intro n e t hid hc hlive
  have hs := identity_before h hi hid (LocalSystem.isRegistered_of_isAccepted hc)
  obtain hsame | ⟨m, l, rfl, hl, hentry, hruntime, hcalled, htask⟩ := step_taskExecutions h
  · rw [hsame]
    obtain hbefore | ⟨rfl, hholder, -⟩ := accepted_before h hi hs hc
    · obtain hlive' | ⟨b, hstep, hp, hq⟩ := step_live h hi hlive
      · exact hcur n e t hs hbefore hlive'
      · -- a pending task has no accepted request
        obtain ⟨-, k, -, hregistered, -⟩ :=
          LocalSystem.step_queues hstep hi.sound.inv hi.sound.submitting hp hq
        obtain ⟨l, hl, ht⟩ := hi.inside hregistered rfl
        have hk : identity? s k = some (l.executionId, t) := by
          rw [identity_of_lookup hl, show t = l.spec.id from ht]
        obtain rfl := ho.unique n k e l.executionId t hs hk
          (LocalSystem.isRegistered_of_isAccepted hbefore) (by rw [hregistered]; rfl)
        rw [hregistered] at hbefore
        cases hbefore
    · obtain ⟨l, hl, he⟩ := Option.map_eq_some_iff.mp hs
      cases he
      simpa [executionsFollow, hholder, hl] using hC
  · -- a claim of the task finds it not live
    rw [htask, UnorderedMap.lookup_insert_eq]
    split
    · rename_i ht
      exfalso
      obtain hlive' | ⟨b, hstep, hp, hq⟩ := step_live h hi hlive
      · simp [executionsFollow, hl, hentry, ← ht, hlive'] at hC
      · rw [hruntime, hp] at hq
        cases hq
    · rename_i hne
      rw [hruntime] at hc
      obtain hlive' | ⟨b, hstep, hp, hq⟩ := step_live h hi hlive
      · exact hcur n e t hs hc hlive'
      · rw [hruntime, hp] at hq
        cases hq

/-! ## The reports -/

/-- What the callback finds in `task_executions_` is the execution that was accepted. -/
theorem accepted_of_reported (hi : Ledger s) (ho : Owned s) (hcur : Current s) {r : Reporter}
    {completion : TaskCompletion} {e : ExecutionID}
    (hc : completion? s.runtime r = some completion) (hnew : r ∉ s.called)
    (he : s.taskExecutions.lookup completion.taskId = some e) :
    ∃ n, Accepted s n e completion.taskId := by
  obtain ⟨x, hx, hterminal⟩ := hi.sound.completed r completion hc
  obtain ⟨n, e', hid, haccepted⟩ := ho.accepted completion.taskId x hx (by
    rintro rfl
    cases hterminal)
  have hlive : isLive s completion.taskId = true :=
    (isLive_iff hi.sound.inv _).mpr (.inr ⟨r, completion, hc, rfl, hnew⟩)
  have hcurrent := hcur n e' completion.taskId hid haccepted hlive
  rw [he] at hcurrent
  cases hcurrent
  refine ⟨n, ?_⟩
  cases hcourse : course s.runtime n with
  | returned status =>
    rw [hcourse] at haccepted
    exact ⟨status, ⟨hid, LocalSystem.returned_of_course hcourse⟩, haccepted⟩
  | marked t' =>
    -- a task that is just being queued is not terminal
    have hqueued := LocalSystem.queued_of_marked hi.sound.inv hcourse
    rw [hi.task_eq (.inr hcourse) hid, hx] at hqueued
    cases hqueued
    cases hterminal
  | outside | checked | registered =>
    rw [hcourse] at haccepted
    cases haccepted

/-- A report is made by the callback, with what it finds. -/
theorem reported_of_mem {t : TaskID} {e : ExecutionID} (h : Effect s a u)
    (hmem : .reported t e ∈ events s a) : ∃ r completion, completion? s.runtime r = some completion ∧
      r ∉ s.called ∧ completion.taskId = t ∧ s.taskExecutions.lookup t = some e := by
  cases h with
  | @report r completion e' hc hnew hentry =>
    simp only [events, hc, hentry, List.mem_singleton, Event.reported.injEq] at hmem
    obtain ⟨rfl, rfl⟩ := hmem
    exact ⟨r, completion, hc, hnew, rfl, hentry⟩
  | unreported hc hnew hentry => simp [events, hc, hentry] at hmem
  | cancel n phase ha hlaunch hcallback =>
    cases a with
    | runtime b => exact absurd rfl (ha b)
    | launchSubmit m => exact absurd rfl (hlaunch m)
    | callback r => exact absurd rfl (hcallback r)
    | _ => cases hmem
  | submit hl => simp [events, hl] at hmem
  | runtime | leave => simp [events] at hmem
  | begin | undecoded | reject | replay | claim | store | cancelRuntime | callbackReturn => cases hmem

/-- Each report so far was of an accepted submission. -/
def Reported (seen : List Event) (s : State) : Prop :=
  ∀ t e, .reported t e ∈ seen → ∃ n, Accepted s n e t

theorem step_reported (h : Effect s a u) (hi : Ledger s) (ho : Owned s) (hcur : Current s)
    (hr : Reported seen s) : Reported (seen ++ events s a) u := by
  intro t e hmem
  obtain hold | hnew := List.mem_append.mp hmem
  · obtain ⟨n, hn⟩ := hr t e hold
    exact ⟨n, step_accepted h hi hn⟩
  · obtain ⟨r, completion, hc, hcalled, rfl, hentry⟩ := reported_of_mem h hnew
    obtain ⟨n, hn⟩ := accepted_of_reported hi ho hcur hc hcalled hentry
    exact ⟨n, step_accepted h hi hn⟩

variable {as : List Action}

/-- Each report carries the execution under which its task was accepted, as long as no launch writes
the execution of a task that another one runs. -/
theorem reports_match
    (h : Run.run step as (.initial registry workerIds capacity reporter) = some s)
    (hC : Run.Along step (fun s a => executionsFollow s a = true) as
      (.initial registry workerIds capacity reporter)) :
    ReportsMatch (observedIn as (.initial registry workerIds capacity reporter)) s := by
  have hstep : ∀ seen s a u, (Ledger s ∧ Owned s ∧ Current s ∧ Reported seen s) →
      executionsFollow s a = true → step s a = some u →
      Ledger u ∧ Owned u ∧ Current u ∧ Reported (seen ++ events s a) u := by
    intro seen s a u ⟨hi, ho, hcur, hr⟩ hC hstep
    have heffect := effect hstep hi.claims
    exact ⟨effect_ledger heffect hi, step_owned heffect hi ho,
      step_current heffect hi hC ho hcur, step_reported heffect hi ho hcur hr⟩
  have hcurrent : Current (.initial registry workerIds capacity reporter) := by
    intro n e t hid
    simp [identity?, State.initial] at hid
  have hreported : Reported [] (.initial registry workerIds capacity reporter) := by
    intro t e hmem
    cases hmem
  have hrun := Run.invariant_observed
    (I := fun seen s => Ledger s ∧ Owned s ∧ Current s ∧ Reported seen s) hstep hC h
    ⟨ledger_initial registry workerIds capacity reporter, owned_initial, hcurrent, hreported⟩
  intro t e hmem
  obtain ⟨n, hn⟩ := hrun.2.2.2 t e hmem
  exact ⟨⟨n, hn⟩, fun n' e' hn' => hrun.2.1.accepted_unique hn hn'⟩

namespace Sample

/-- The task is run, and its completion is in the hands of the worker thread. -/
def run : List Action :=
  [.runtime (.loop .wait)] ++ (LocalSystem.Sample.schedule (.ofByte 1)).map .runtime ++
    (LocalSystem.Sample.execute.take 5).map .runtime

/-- Another execution names the task once it has been reported. -/
def reportedFirst : List Action :=
  start ++ claim 1 1 1 ++ submit 1 none ++ run ++
    [.callback (.worker LocalSystem.Sample.workerId),
      .callbackReturn (.worker LocalSystem.Sample.workerId)] ++ claim 2 1 2

/-- Another execution names the task while it is queued, and is refused. -/
def renamed : List Action :=
  start ++ claim 1 1 1 ++ submit 1 none ++ claim 2 1 2 ++
    [.launchSubmit 2, .runtime (.call .submitRegister), .launchStore 2] ++ run ++
    [.callback (.worker LocalSystem.Sample.workerId)]

end Sample

set_option maxRecDepth 4000 in
theorem reports_match_reportedFirst :
    .reported (LocalSystem.Sample.task 1) (.ofByte 1) ∈
      observedIn Sample.reportedFirst Sample.worker ∧
    ReportsMatch (observedIn Sample.reportedFirst Sample.worker)
      (Run.stateAfter step Sample.reportedFirst Sample.worker) := by
  have hrun : Run.run step Sample.reportedFirst Sample.worker =
      some (Run.stateAfter step Sample.reportedFirst Sample.worker) :=
    Run.run_stateAfter (by decide)
  exact ⟨by decide, reports_match hrun (by decide)⟩

/-- The task is reported under an execution whose submission was refused. -/
theorem reported_under_refused : ∃ s, Run.run step Sample.renamed Sample.worker = some s ∧
    s.runtime.submits.lookup 2 = some (.AlreadyExists "Task already registered") ∧
    .reported (LocalSystem.Sample.task 1) (.ofByte 2) ∈
      observedIn Sample.renamed Sample.worker ∧
    ¬ ReportsMatch (observedIn Sample.renamed Sample.worker) s := by
  obtain ⟨s, hrun, hrefused, hreported, hid, hstatus⟩ : ∃ s,
      Run.run step Sample.renamed Sample.worker = some s ∧
      s.runtime.submits.lookup 2 = some (.AlreadyExists "Task already registered") ∧
      .reported (LocalSystem.Sample.task 1) (.ofByte 2) ∈
        observedIn Sample.renamed Sample.worker ∧
      identity? s 1 = some (.ofByte 1, LocalSystem.Sample.task 1) ∧
      s.runtime.submits.lookup 1 = some .OK :=
    ⟨_, Run.run_stateAfter (by decide), by decide, by decide, by decide, by decide⟩
  refine ⟨s, hrun, hrefused, hreported, fun h => ?_⟩
  have hsame := (h _ _ hreported).2 1 (.ofByte 1) ⟨.OK, ⟨hid, hstatus⟩, rfl⟩
  exact absurd hsame (by decide)

end WorkerService

end AgentRuntime
