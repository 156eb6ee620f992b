import AgentRuntime.Local.Executions

/-!
# The outcomes of the handlers

A handler leaves its thread with an outcome once, and the record of a terminal
task says what that outcome was. A task that was taken out of the queue has the
status of the cancellation instead, and no handler was entered.
-/
namespace AgentRuntime

namespace LocalSystem

variable {s u : State} {seen : List (TaskID × HandlerExit)}

/-- The exit of a handler that a step observes, with the task it was called for. -/
def exits (s : State) : Action → List (TaskID × HandlerExit)
  | .thread w (.leaveHandler exit) =>
    match (s.worker w).thread with
    | .executing work => [(work.spec.id, exit)]
    | _ => []
  | _ => []

/-- How the handler of a task has been left, each time. -/
def exitsOf (seen : List (TaskID × HandlerExit)) (t : TaskID) : List HandlerExit :=
  (seen.filter fun e => e.1 = t).map Prod.snd

theorem exitsOf_append (seen evs : List (TaskID × HandlerExit)) (t : TaskID) :
    exitsOf (seen ++ evs) t = exitsOf seen t ++ exitsOf evs t := by
  simp [exitsOf]

theorem exitsOf_single (t t' : TaskID) (exit : HandlerExit) :
    exitsOf [(t', exit)] t = if t = t' then [exit] else [] := by
  by_cases h : t = t'
  · subst h
    simp [exitsOf]
  · simp [exitsOf, h, Ne.symm h]

/-- The record says what the outcome is. -/
def Shows (record : TaskRecord) (outcome : ExecutionOutcome) : Prop :=
  record.state = TaskManager.terminalState outcome.status ∧
    record.terminalStatus = outcome.status ∧ record.result = outcome.result

/-- What a task has that is cancelled in the queue. -/
def withdrawal : ExecutionOutcome := ⟨.Cancelled "task cancelled before execution", []⟩

/-- How a task has ended, going by the exits of its handler. -/
inductive EndedAs (record : TaskRecord) : List HandlerExit → Prop where
  | executed (exit) (h : Shows record (Executor.outcome exit)) : EndedAs record [exit]
  | withdrawn (h : Shows record withdrawal) (htoken : record.cancelRequested = true) :
      EndedAs record []

/-! ## What a step does -/

/-- What the thread is about to commit. -/
def Thread.outcome? : Thread → Option (TaskID × ExecutionOutcome)
  | .finished work outcome => some (work.spec.id, outcome)
  | _ => none

def State.outcome? (s : State) (w : WorkerID) : Option (TaskID × ExecutionOutcome) :=
  Thread.outcome? (s.thread w)

/-- The record of the task stays, or is not terminal before or after. -/
def Undecided (s u : State) (t : TaskID) : Prop := u.record t = s.record t ∨
  (∀ record, s.record t = some record → record.state.isTerminal = false) ∧
    ∀ record, u.record t = some record → record.state.isTerminal = false

/-- What a step does to the outcomes that are on their way into the records. -/
inductive OutcomeStep (s u : State) : List (TaskID × HandlerExit) → Prop where
  | quiet (houtcome : ∀ w, u.outcome? w = s.outcome? w) (hrecord : ∀ t, Undecided s u t) :
      OutcomeStep s u []
  | left {w work exit} (hthread : s.thread w = .executing work)
      (houtcome : ∀ w', u.outcome? w' =
        if w' = w then some (work.spec.id, Executor.outcome exit) else s.outcome? w')
      (hrecord : u.record = s.record) : OutcomeStep s u [(work.spec.id, exit)]
  | committed {w t outcome own} (hbefore : s.outcome? w = some (t, outcome))
      (houtcome : ∀ w', u.outcome? w' = if w' = w then none else s.outcome? w')
      (hrecord : ∀ t', u.record t' = if t' = t then some own else s.record t')
      (hown : Shows own outcome) : OutcomeStep s u []
  | withdrew {t old own} (houtcome : ∀ w, u.outcome? w = s.outcome? w)
      (hold : s.record t = some old) (hqueued : old.state = .queued)
      (hrecord : ∀ t', u.record t' = if t' = t then some own else s.record t')
      (hown : Shows own withdrawal) (htoken : own.cancelRequested = true) : OutcomeStep s u []

theorem record_of_store {id : TaskID} {own : TaskRecord} {tm : TaskManager}
    (htm : s.taskManager = tm) (hu : u.taskManager = tm.store id own) (t : TaskID) :
    u.record t = if t = id then some own else s.record t := by
  simp only [State.record, hu, htm, TaskManager.lookup_store]

theorem undecided_of_store {id : TaskID} {own : TaskRecord} {tm : TaskManager}
    (htm : s.taskManager = tm) (hu : u.taskManager = tm.store id own)
    (hbefore : ∀ old, s.record id = some old → old.state.isTerminal = false)
    (hlive : own.state.isTerminal = false) (t : TaskID) : Undecided s u t := by
  have hrecord := record_of_store htm hu t
  by_cases ht : t = id
  · subst ht
    rw [if_pos rfl] at hrecord
    refine .inr ⟨hbefore, fun record hl => ?_⟩
    rw [hrecord] at hl
    cases hl
    exact hlive
  · rw [if_neg ht] at hrecord
    exact .inl hrecord

theorem live_of_record {t : TaskID} {old : TaskRecord} (hold : s.record t = some old)
    (hlive : old.state.isTerminal = false) (record : TaskRecord) (hl : s.record t = some record) :
    record.state.isTerminal = false := by
  rw [hold] at hl
  cases hl
  exact hlive

theorem callStep_outcome {a : CallAction} (h : callStep s a = some u) (hi : Inv s) :
    OutcomeStep s u [] := by
  have he := callEffect h hi.unfailing
  have hpool := (callFrame h).pool
  have houtcome : ∀ w, u.outcome? w = s.outcome? w := by
    intro w
    rw [State.outcome?, State.thread, State.worker, hpool]
    rfl
  generalize hholder : s.holder = holder at he
  generalize u.holder = holder' at he
  generalize u.queue = queue' at he
  generalize htm : u.taskManager = tm' at he
  have same : u.taskManager = s.taskManager → ∀ t, Undecided s u t := fun hsame t =>
    .inl (by simp only [State.record, hsame])
  cases he with
  | register _ _ hnew _ =>
    refine .quiet houtcome (undecided_of_store rfl htm (fun old hold => ?_) rfl)
    rw [State.record, hnew] at hold
    cases hold
  | markQueued hrecord hpending =>
    exact .quiet houtcome
      (undecided_of_store rfl htm (live_of_record hrecord (by rw [hpending]; rfl)) rfl)
  | cancelQueued hrecord hqueued =>
    exact .withdrew houtcome hrecord hqueued (record_of_store rfl htm) ⟨rfl, rfl, rfl⟩ rfl
  | @cancelRunning _ _ _ record hrecord hrunning =>
    have hlive : record.state.isTerminal = false := by rw [hrunning]; rfl
    exact .quiet houtcome (undecided_of_store rfl htm (live_of_record hrecord hlive) hlive)
  | same | beginEnqueue | beginRemove | beginCancel | push | remove | refuseEnqueue
  | refuseCancel | «return» => exact .quiet houtcome (same htm)

theorem loopEffect_outcome {evs : List Event} (h : LoopEffect s evs u) : OutcomeStep s u [] := by
  have set : ∀ (w w' : WorkerID) (worker : Worker), worker.thread = (s.worker w).thread →
      Thread.outcome? ((s.pool.set w worker).workers w').thread = s.outcome? w' := by
    intro w w' worker hthread
    rw [WorkerPool.workers_set]
    split
    · rename_i he
      rw [he, hthread]
      rfl
    · rfl
  cases h with
  | mark executionId hholder hrecord hqueued =>
    exact .quiet (fun _ => rfl)
      (undecided_of_store rfl rfl (live_of_record hrecord (by rw [hqueued]; rfl)) rfl)
  | reserve | dispatch =>
    exact .quiet (fun w => set _ w _ rfl) (fun _ => .inl rfl)
  | rest | peek | spec | observe | choose | skip | select | giveUp | acquire | handler | token
  | pop => exact .quiet (fun _ => rfl) (fun _ => .inl rfl)

/-- A thread leaves the handler it is in, and does nothing else there. -/
theorem threadStep_executing {w : WorkerID} {a : ThreadAction} (h : threadStep s w a = some u)
    {work : WorkItem} (hthread : (s.worker w).thread = .executing work) :
    ∃ exit, a = .leaveHandler exit := by
  cases a with
  | leaveHandler exit => exact ⟨exit, rfl⟩
  | take => simp [threadStep, Worker.take, hthread] at h
  | _ => simp [threadStep, hthread] at h

theorem exits_of_thread {w : WorkerID} {a : ThreadAction}
    (h : ∀ work, (s.worker w).thread ≠ .executing work) : exits s (.thread w a) = [] := by
  cases a with
  | leaveHandler exit => simp only [exits]
  | _ => rfl

theorem threadStep_outcome {w : WorkerID} {a : ThreadAction} (h : threadStep s w a = some u)
    (hi : Inv s) : OutcomeStep s u (exits s (.thread w a)) := by
  -- the thread had no outcome and has none
  have set : ∀ {v : State} {after : Thread}, (∀ w', v.thread w' = s.thread w') →
      Thread.outcome? (s.thread w) = Thread.outcome? after →
      ∀ w', (v.setThread w after).outcome? w' = s.outcome? w' := by
    intro v after hv hafter w'
    simp only [State.outcome?, thread_setThread, hv]
    split
    · rename_i he
      rw [he, hafter]
    · rfl
  have setWorker : ∀ {worker : Worker}, Thread.outcome? (s.thread w) =
      Thread.outcome? worker.thread →
      ∀ w', (s.setWorker w worker).outcome? w' = s.outcome? w' := by
    intro worker hafter w'
    simp only [State.outcome?, State.thread, State.worker_setWorker]
    split
    · rename_i he
      rw [he]
      exact hafter.symm
    · rfl
  have he := threadEffect h hi.unfailing
  generalize threadEvents s w a = evs at he
  cases he with
  | @leaveHandler work outcome hthread =>
    obtain ⟨exit, rfl⟩ := threadStep_executing h hthread
    have hu : s.setThread w (.finished work (Executor.outcome exit)) =
        s.setThread w (.finished work outcome) := by
      simpa only [threadStep, hthread, Option.some.injEq] using h
    simp only [exits, hthread]
    refine .left hthread (fun w' => ?_) rfl
    rw [← hu]
    simp only [State.outcome?, thread_setThread]
    split <;> rfl
  | take hthread | leave hthread | becomeIdle hthread =>
    rw [exits_of_thread (by simp [hthread])]
    exact .quiet (setWorker (by rw [State.thread, hthread]; rfl)) (fun _ => .inl rfl)
  | markRunning hthread hrecord hscheduled =>
    rw [exits_of_thread (by simp [hthread])]
    refine .quiet (set (fun _ => rfl) (by rw [State.thread, hthread]; rfl)) ?_
    exact undecided_of_store rfl rfl (live_of_record hrecord (by rw [hscheduled]; rfl)) rfl
  | @complete work outcome record thread hthread hrecord hrunning hnext =>
    rw [exits_of_thread (by simp [hthread])]
    have hbefore : s.outcome? w = some (work.spec.id, outcome) := by
      rw [State.outcome?, State.thread, hthread]
      rfl
    refine .committed hbefore (fun w' => ?_) (record_of_store rfl rfl) ⟨rfl, rfl, rfl⟩
    · simp only [State.outcome?, thread_setThread]
      split
      · obtain rfl | ⟨completion, -, rfl⟩ := hnext <;> rfl
      · rfl
  | invoke hthread | reported hthread | erase hthread | eraseNone hthread | release hthread
  | wake _ hthread | announce hthread =>
    rw [exits_of_thread (by simp [hthread])]
    exact .quiet (set (fun _ => rfl) (by rw [State.thread, hthread]; rfl)) (fun _ => .inl rfl)

/-- Starting and stopping workers touches no thread that has an outcome. -/
theorem poolsEffect_outcome {rm : ResourceManager} {pool : WorkerPool} (h : PoolsEffect s rm pool)
    (hs : Slots s.pool s.holder) (w : WorkerID) :
    Thread.outcome? (pool.workers w).thread = s.outcome? w := by
  cases h with
  | same | register | closePool => rfl
  | startPool =>
    simp only [WorkerPool.start]
    split
    · rfl
    · simp only [Worker.start, State.outcome?, State.thread, State.worker]
      split
      · split
        · rfl
        · rename_i hdown
          rw [((hs.wellFormed w).down (by simpa using hdown)).2]
          rfl
      · rfl
  | requestStop w' =>
    rw [WorkerPool.workers_set]
    split
    · rename_i he
      rw [he]
      rfl
    · rfl
  | @reset w' hexited hloop =>
    rw [WorkerPool.workers_set]
    split
    · rename_i he
      rw [he, State.outcome?, State.thread, hexited]
      rfl
    · rfl

theorem step_outcome {a : Action} (h : step s a = some u) (hi : Inv s) :
    OutcomeStep s u (exits s a) := by
  cases a with
  | call a => exact callStep_outcome h hi
  | loop a => exact loopEffect_outcome (loopEffect h hi.unfailing)
  | thread w a => exact threadStep_outcome h hi
  | lifecycle a =>
    have he := lifecycleEffect h hi.stage
    exact .quiet (poolsEffect_outcome he.pools hi.slots)
      (fun t => .inl (by simp only [State.record, he.taskManager]))
  | wake waiter =>
    obtain rfl := step_wake h
    exact .quiet (fun _ => rfl) (fun _ => .inl rfl)

/-! ## The invariant -/

/-- Each exit of a handler is with the thread that is to commit it, or in the record. -/
structure Outcomes (seen : List (TaskID × HandlerExit)) (s : State) : Prop where
  open_ : ∀ t, (∀ record, s.record t = some record → record.state.isTerminal = false) →
    (∀ w outcome, s.outcome? w ≠ some (t, outcome)) → exitsOf seen t = []
  finished : ∀ w t outcome, s.outcome? w = some (t, outcome) →
    ∃ exit, exitsOf seen t = [exit] ∧ outcome = Executor.outcome exit
  ended : ∀ t record, s.record t = some record → record.state.isTerminal = true →
    EndedAs record (exitsOf seen t)

theorem outcomes_initial (workerIds : List WorkerID) (capacity : ResourceSet) (callback : Bool) :
    Outcomes [] (.initial workerIds capacity callback) where
  open_ _ _ _ := rfl
  finished w t outcome h := by
    simp [State.outcome?, State.thread, State.initial, State.worker, WorkerPool.new, Worker.new,
      Thread.outcome?] at h
  ended t record h := by simp [State.record, State.initial] at h

theorem Thread.item?_of_outcome {thread : Thread} {t : TaskID} {outcome : ExecutionOutcome}
    (h : Thread.outcome? thread = some (t, outcome)) :
    ∃ work, thread.item? = some (work, .running) ∧ work.spec.id = t := by
  cases thread with
  | finished work outcome' =>
    cases h
    exact ⟨work, rfl, rfl⟩
  | _ => cases h

/-- A task whose outcome is with a thread is running. -/
theorem Inv.running_of_outcome (hi : Inv s) {w : WorkerID} {t : TaskID}
    {outcome : ExecutionOutcome} (h : s.outcome? w = some (t, outcome)) :
    ∃ record, s.record t = some record ∧ record.state = .running := by
  obtain ⟨work, hitem, rfl⟩ := Thread.item?_of_outcome h
  obtain ⟨record, hl, hstate, -⟩ := hi.record_of_thread hitem
  exact ⟨record, hl, hstate⟩

/-- It is with one thread. -/
theorem Inv.outcome_unique (hi : Inv s) {w w' : WorkerID} {t : TaskID} {work : WorkItem}
    {outcome : ExecutionOutcome} (h : s.outcome? w = some (t, outcome))
    (hitem : (s.thread w').item? = some (work, .running)) (hid : work.spec.id = t) : w = w' := by
  obtain ⟨work', hitem', hid'⟩ := Thread.item?_of_outcome h
  exact hi.thread_unique hitem' hitem (hid'.trans hid.symm)

theorem Outcomes.step (ho : Outcomes seen s) (hi : Inv s) {evs : List (TaskID × HandlerExit)}
    (h : OutcomeStep s u evs) : Outcomes (seen ++ evs) u := by
  cases h with
  | quiet houtcome hrecord =>
    rw [List.append_nil]
    refine ⟨fun t hlive hnone => ?_, fun w t outcome hw => ?_, fun t record hl hterm => ?_⟩
    · refine ho.open_ t (fun record hl => ?_) (fun w outcome => houtcome w ▸ hnone w outcome)
      obtain hsame | ⟨hbefore, -⟩ := hrecord t
      · exact hlive record (hsame.trans hl)
      · exact hbefore record hl
    · exact ho.finished w t outcome (houtcome w ▸ hw)
    · obtain hsame | ⟨-, hafter⟩ := hrecord t
      · exact ho.ended t record (hsame ▸ hl) hterm
      · rw [hafter record hl] at hterm
        cases hterm
  | @left w work exit hthread houtcome hrecord =>
    have hitem : (s.thread w).item? = some (work, .running) := by
      rw [hthread]
      rfl
    obtain ⟨record, hl, hrunning, -⟩ := hi.record_of_thread hitem
    have hlive : record.state.isTerminal = false := by rw [hrunning]; rfl
    -- no other thread has an outcome of the task, and this one is only now left with one
    have hnone : ∀ w' outcome, s.outcome? w' ≠ some (work.spec.id, outcome) := by
      intro w' outcome hw'
      obtain rfl := hi.outcome_unique hw' hitem rfl
      rw [State.outcome?, hthread] at hw'
      cases hw'
    have hempty := ho.open_ _ (live_of_record hl hlive) hnone
    have hother : ∀ t, t ≠ work.spec.id → exitsOf (seen ++ [(work.spec.id, exit)]) t =
        exitsOf seen t := by
      intro t ht
      rw [exitsOf_append, exitsOf_single, if_neg ht, List.append_nil]
    refine ⟨fun t hlive' hnone' => ?_, fun w' t outcome hw' => ?_, fun t record' hl' hterm => ?_⟩
    · have ht : t ≠ work.spec.id := by
        rintro rfl
        exact hnone' w _ ((houtcome w).trans (if_pos rfl))
      rw [hother t ht]
      refine ho.open_ t (fun record hl => hlive' record (by rw [hrecord]; exact hl)) ?_
      intro w' outcome hw'
      refine hnone' w' outcome ?_
      rw [houtcome, if_neg]
      · exact hw'
      · rintro rfl
        rw [State.outcome?, hthread] at hw'
        cases hw'
    · rw [houtcome] at hw'
      split at hw'
      · cases hw'
        exact ⟨exit, by simp [exitsOf_append, exitsOf_single, hempty], rfl⟩
      · have ht : t ≠ work.spec.id := by
          rintro rfl
          exact hnone w' outcome hw'
        rw [hother t ht]
        exact ho.finished w' t outcome hw'
    · rw [hrecord] at hl'
      have ht : t ≠ work.spec.id := by
        rintro rfl
        rw [live_of_record hl hlive record' hl'] at hterm
        cases hterm
      rw [hother t ht]
      exact ho.ended t record' hl' hterm
  | @committed w t outcome own hbefore houtcome hrecord hown =>
    obtain ⟨exit, hexits, rfl⟩ := ho.finished w t outcome hbefore
    obtain ⟨work, hitem, hid⟩ := Thread.item?_of_outcome hbefore
    have hterm' : own.state.isTerminal = true := by
      rw [hown.1]
      exact TaskManager.isTerminal_terminalState _
    rw [List.append_nil]
    refine ⟨fun t' hlive hnone => ?_, fun w' t' outcome' hw' => ?_, fun t' record hl hterm => ?_⟩
    · have ht : t' ≠ t := by
        rintro rfl
        have := hlive own ((hrecord t').trans (if_pos rfl))
        rw [hterm'] at this
        cases this
      refine ho.open_ t' (fun record hl => hlive record (by rw [hrecord, if_neg ht, hl])) ?_
      intro w' outcome' hw'
      refine hnone w' outcome' ?_
      rw [houtcome, if_neg]
      · exact hw'
      · rintro rfl
        rw [hbefore] at hw'
        cases hw'
        exact ht rfl
    · rw [houtcome] at hw'
      split at hw'
      · cases hw'
      · exact ho.finished w' t' outcome' hw'
    · rw [hrecord] at hl
      split at hl
      · rename_i ht
        cases hl
        rw [ht, hexits]
        exact .executed exit hown
      · exact ho.ended t' record hl hterm
  | @withdrew t old own houtcome hold hqueued hrecord hown htoken =>
    have hlive : old.state.isTerminal = false := by rw [hqueued]; rfl
    have hnone : ∀ w outcome, s.outcome? w ≠ some (t, outcome) := by
      intro w outcome hw
      obtain ⟨record, hl, hrunning⟩ := hi.running_of_outcome hw
      rw [hold] at hl
      cases hl
      rw [hqueued] at hrunning
      cases hrunning
    have hempty := ho.open_ t (live_of_record hold hlive) hnone
    have hterm' : own.state.isTerminal = true := by
      rw [hown.1]
      exact TaskManager.isTerminal_terminalState _
    rw [List.append_nil]
    refine ⟨fun t' hlive' hnone' => ?_, fun w t' outcome hw => ?_, fun t' record hl hterm => ?_⟩
    · have ht : t' ≠ t := by
        rintro rfl
        have := hlive' own ((hrecord t').trans (if_pos rfl))
        rw [hterm'] at this
        cases this
      exact ho.open_ t' (fun record hl => hlive' record (by rw [hrecord, if_neg ht, hl]))
        (fun w outcome => houtcome w ▸ hnone' w outcome)
    · exact ho.finished w t' outcome (houtcome w ▸ hw)
    · rw [hrecord] at hl
      split at hl
      · rename_i ht
        cases hl
        rw [ht, hempty]
        exact .withdrawn hown htoken
      · exact ho.ended t' record hl hterm

theorem outcomes_run {workerIds : List WorkerID} {capacity : ResourceSet} {callback : Bool}
    {as : List Action} (h : Run.run step as (.initial workerIds capacity callback) = some s) :
    Outcomes (Run.observed step exits as (.initial workerIds capacity callback)) s := by
  have hkept : ∀ seen (s : State) a u, Inv s ∧ Outcomes seen s → True → step s a = some u →
      Inv u ∧ Outcomes (seen ++ exits s a) u := fun _ _ _ _ hs _ hstep =>
    ⟨step_inv hstep hs.1, hs.2.step hs.1 (step_outcome hstep hs.1)⟩
  exact (Run.invariant_observed hkept (Run.along_true as _) h
    ⟨inv_initial workerIds capacity callback, outcomes_initial workerIds capacity callback⟩).2

end LocalSystem

end AgentRuntime
