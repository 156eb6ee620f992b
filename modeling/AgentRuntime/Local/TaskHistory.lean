import AgentRuntime.Local.Invariant

/-!
# What one step does to a task

A record only moves forward, and it leaves the pending state inside `Enqueue`
alone. A completion is handed to the callback by the thread that completed the
task, and until that thread goes on the task is terminal.
-/
namespace AgentRuntime

namespace LocalSystem

/-! ## Records -/

def stateOf (tm : TaskManager) (t : TaskID) : Option ExecutionState :=
  (tm.records.lookup t).map TaskRecord.state

theorem stateOf_of_lookup {tm : TaskManager} {t : TaskID} {record : TaskRecord}
    (h : tm.records.lookup t = some record) : stateOf tm t = some record.state := by
  rw [stateOf, h]
  rfl

theorem stateOf_store (tm : TaskManager) (id t : TaskID) (record : TaskRecord) :
    stateOf (tm.store id record) t = if t = id then some record.state else stateOf tm t := by
  simp only [stateOf, TaskManager.lookup_store]
  split <;> rfl

/-- What a step can do to the state of a task. -/
inductive TaskStep (submitting : TaskSpec → TaskHandler → Prop) (holder : Option Holder)
    (t : TaskID) : Option ExecutionState → Option ExecutionState → Prop where
  | stay (x) : TaskStep submitting holder t x x
  | register {spec handler} (hsubmit : submitting spec handler) (hid : spec.id = t) :
      TaskStep submitting holder t none (some .pending)
  | queue {k} (hholder : holder = some (.enqueueMark k t)) :
      TaskStep submitting holder t (some .pending) (some .queued)
  | advance {x y} (hactive : x.isActive = true) (hy : y ≠ .pending) :
      TaskStep submitting holder t (some x) (some y)

variable {submitting : TaskSpec → TaskHandler → Prop} {tm tm' : TaskManager}
  {queue queue' : TaskQueue} {holder holder' : Option Holder} {s u : State} {evs : List Event}

theorem taskStep_store {id : TaskID} {record : TaskRecord}
    (h : TaskStep submitting holder id (stateOf tm id) (some record.state)) (t : TaskID) :
    TaskStep submitting holder t (stateOf tm t) (stateOf (tm.store id record) t) := by
  rw [stateOf_store]
  split
  · rename_i he
    subst he
    exact h
  · exact .stay _

/-- An active task changes. -/
theorem taskStep_advance {id : TaskID} {record record' : TaskRecord}
    (hl : tm.records.lookup id = some record) (hactive : record.state.isActive = true)
    (hy : record'.state ≠ .pending) (t : TaskID) :
    TaskStep submitting holder t (stateOf tm t) (stateOf (tm.store id record') t) := by
  apply taskStep_store
  rw [stateOf_of_lookup hl]
  exact .advance hactive hy

theorem callEffect_taskStep (h : CallEffect submitting tm queue holder tm' queue' holder')
    (t : TaskID) : TaskStep submitting holder t (stateOf tm t) (stateOf tm' t) := by
  cases h with
  | register holder hsubmit hnew hhandler =>
    apply taskStep_store
    rw [show stateOf tm _ = none by rw [stateOf, hnew]; rfl]
    exact .register hsubmit rfl
  | markQueued hrecord hpending =>
    apply taskStep_store
    rw [stateOf_of_lookup hrecord, hpending]
    exact .queue rfl
  | cancelQueued hrecord hqueued _ =>
    exact taskStep_advance hrecord (by rw [hqueued]; rfl) (by simp [TaskManager.cancelledRecord]) t
  | cancelRunning hrecord hrunning =>
    exact taskStep_advance hrecord (by rw [hrunning]; rfl) (by simp [hrunning]) t
  | same | beginEnqueue | beginRemove | beginCancel | push | remove | refuseEnqueue
  | refuseCancel | «return» => exact .stay _

theorem loopEffect_taskStep (h : LoopEffect s evs u) (t : TaskID) :
    TaskStep submitting holder t (stateOf s.taskManager t) (stateOf u.taskManager t) := by
  cases h with
  | mark _ _ hrecord hqueued => exact taskStep_advance hrecord (by rw [hqueued]; rfl) (by simp) t
  | rest | peek | spec | observe | choose | skip | select | giveUp | reserve | acquire | handler
  | token | pop | dispatch => exact .stay _

theorem threadEffect_taskStep {w : WorkerID} (h : ThreadEffect s w evs u) (t : TaskID) :
    TaskStep submitting holder t (stateOf s.taskManager t) (stateOf u.taskManager t) := by
  cases h with
  | markRunning _ hrecord hscheduled =>
    exact taskStep_advance hrecord (by rw [hscheduled]; rfl) (by simp) t
  | @complete work outcome record after _ hrecord hrunning _ =>
    refine taskStep_advance hrecord (by rw [hrunning]; rfl) ?_ t
    intro (he : TaskManager.terminalState outcome.status = .pending)
    have hterm := TaskManager.isTerminal_terminalState outcome.status
    rw [he] at hterm
    cases hterm
  | take | leave | invoke | leaveHandler | reported | becomeIdle | erase | eraseNone | release
  | wake | announce => exact .stay _

theorem step_taskStep {a : Action} (h : step s a = some u) (hi : Inv s) (t : TaskID) :
    TaskStep (fun spec handler => ∃ k, s.lifecycle = some (.registering k spec handler)) s.holder t
      (stateOf s.taskManager t) (stateOf u.taskManager t) := by
  cases a with
  | call a => exact callEffect_taskStep (callEffect h hi.unfailing) t
  | loop a => exact loopEffect_taskStep (loopEffect h hi.unfailing) t
  | thread w a => exact threadEffect_taskStep (threadEffect h hi.unfailing) t
  | lifecycle a =>
    rw [(lifecycleEffect h hi.stage).taskManager]
    exact .stay _
  | wake waiter =>
    obtain rfl := step_wake h
    exact .stay _

/-- The task has left the pending state. -/
def Begun (tm : TaskManager) (t : TaskID) : Prop := ∃ x, stateOf tm t = some x ∧ x ≠ .pending

theorem step_begun {a : Action} (h : step s a = some u) (hi : Inv s) {t : TaskID}
    (ht : Begun s.taskManager t) : Begun u.taskManager t := by
  obtain ⟨x, hx, hne⟩ := ht
  have hstep := step_taskStep h hi t
  rw [hx] at hstep
  generalize hy : stateOf u.taskManager t = y at hstep
  cases hstep with
  | stay => exact ⟨x, hy, hne⟩
  | queue => exact absurd rfl hne
  | advance _ hne' => exact ⟨_, hy, hne'⟩

/-! ## Completions -/

/-- The completion that the thread of a worker calls the callback with. -/
def Thread.completion? : Thread → Option TaskCompletion
  | .reporting completion => some completion
  | _ => none

/-- The completion that the thread inside `Scheduler::Cancel` calls the callback with. -/
def Holder.completion? : Option Holder → Option TaskCompletion
  | some (.cancelReport _ _ completion) => completion
  | _ => none

/-- A thread that calls the completion callback. -/
inductive Reporter where
  | worker (w : WorkerID)
  | cancel
  deriving DecidableEq

def completion? (s : State) : Reporter → Option TaskCompletion
  | .worker w => Thread.completion? (s.worker w).thread
  | .cancel => Holder.completion? s.holder

/-- The thread that is back from the callback and goes on. -/
def leaves (s : State) : Action → Option Reporter
  | .thread w .reported => some (.worker w)
  | .call (.cancelReturn _) => (completion? s .cancel).map (fun _ => .cancel)
  | _ => none

/-- What a step can do to the completion of a thread. -/
inductive CompletionStep (s : State) (a : Action) (u : State) (r : Reporter) :
    Option TaskCompletion → Option TaskCompletion → Prop where
  | stay (x) : CompletionStep s a u r x x
  | start {completion x y} (hactive : stateOf s.taskManager completion.taskId = some x)
      (hx : x.isActive = true) (hdone : stateOf u.taskManager completion.taskId = some y)
      (hy : y.isTerminal = true) : CompletionStep s a u r none (some completion)
  | leave {completion} (hleaves : leaves s a = some r) :
      CompletionStep s a u r (some completion) none

theorem callStep_holder_cancelReport {a : CallAction} {k : Nat} {queued : Bool}
    {completion : Option TaskCompletion} (h : callStep s a = some u)
    (hs : s.holder = some (.cancelReport k queued completion)) :
    u.holder = s.holder ∨ ∃ woken, a = .cancelReturn woken := by
  cases a with
  | submitBegin k spec handler => exact .inl (callStep_holder_submit h (.inr ⟨_, _, _, rfl⟩))
  | submitRegister => exact .inl (callStep_holder_submit h (.inl rfl))
  | cancelReturn woken => exact .inr ⟨woken, rfl⟩
  | enqueueBegin | enqueueMark | enqueuePush | cancelBegin | cancelRemove | cancelTask
  | drainBegin | drainWait => simp [callStep, hs] at h

theorem callStep_completion {a : CallAction} (h : callStep s a = some u) (hi : Inv s)
    (r : Reporter) : CompletionStep s (.call a) u r (completion? s r) (completion? u r) := by
  cases r with
  | worker w =>
    rw [show completion? u (.worker w) = completion? s (.worker w) by
      simp only [completion?, State.worker, (callFrame h).pool]]
    exact .stay _
  | cancel =>
    have he := callEffect h hi.unfailing
    have hreturn : ∀ k queued completion, s.holder = some (.cancelReport k queued completion) →
        u.holder = s.holder ∨ ∃ woken, a = .cancelReturn woken :=
      fun _ _ _ hs => callStep_holder_cancelReport h hs
    simp only [completion?]
    generalize hsh : s.holder = holder at he hreturn
    generalize huh : u.holder = holder' at he hreturn
    generalize htm : u.taskManager = tm' at he
    generalize hqueue : u.queue = queue' at he
    cases he with
    | @cancelQueued k t queued record completion hrecord hqueued hcompletion =>
      cases completion with
      | none => exact .stay _
      | some completion =>
        have hid := (hi.agreement.records t record hrecord).1
        have htask := hcompletion completion rfl
        rw [hid] at htask
        refine .start (x := record.state) (y := .cancelled) ?_ (by rw [hqueued]; rfl) ?_ rfl
        · rw [htask]
          exact stateOf_of_lookup hrecord
        · rw [htask, htm, stateOf_store, if_pos rfl]
          rfl
    | «return» k queued completion =>
      cases completion with
      | none => exact .stay _
      | some completion =>
        obtain hsame | ⟨woken, rfl⟩ := hreturn k queued (some completion) rfl
        · cases hsame
        · refine .leave ?_
          simp [leaves, completion?, hsh, Holder.completion?]
    | same | register | beginEnqueue | beginRemove | beginCancel | markQueued | push | remove
    | cancelRunning | refuseEnqueue | refuseCancel => exact .stay _

theorem threadStep_completion {w : WorkerID} {a : ThreadAction} (h : threadStep s w a = some u)
    (hi : Inv s) (r : Reporter) :
    CompletionStep s (.thread w a) u r (completion? s r) (completion? u r) := by
  have he := threadEffect h hi.unfailing
  cases r with
  | cancel =>
    have hholder : u.holder = s.holder := by
      generalize threadEvents s w a = evs at he
      cases he <;> rfl
    simp only [completion?, hholder]
    exact .stay _
  | worker w' =>
    by_cases hw : w' = w
    · subst hw
      have hleave : ∀ completion, (s.worker w').thread = .reporting completion →
          leaves s (.thread w' a) = some (.worker w') := by
        intro completion hthread
        cases a with
        | reported => rfl
        | take => simp [threadStep, Worker.take, hthread] at h
        | _ => simp [threadStep, hthread] at h
      simp only [completion?]
      generalize threadEvents s w' a = evs at he
      cases he with
      | @complete work outcome record after hthread hrecord hrunning hnext =>
        rw [hthread]
        obtain rfl | ⟨completion, htask, rfl⟩ := hnext
        · simp only [State.worker_setThread, if_true]
          exact .stay _
        · have hid := (hi.agreement.records _ record hrecord).1
          simp only [State.worker_setThread, if_true]
          rw [hid] at htask
          refine .start (x := record.state) ?_ (by rw [hrunning]; rfl) ?_
            (TaskManager.isTerminal_terminalState outcome.status)
          · rw [htask]
            exact stateOf_of_lookup hrecord
          · rw [htask]
            simp only [State.setThread, State.setWorker, stateOf_store, if_true]
      | reported hthread =>
        have hl := hleave _ hthread
        rw [hthread]
        simp only [State.worker_setThread, if_true]
        exact .leave hl
      | take hthread _ | leave hthread _ _ | becomeIdle hthread =>
        rw [hthread]
        simp only [State.worker_setWorker, if_true]
        exact .stay _
      | markRunning hthread _ _ | invoke hthread | leaveHandler _ hthread | erase hthread _ _
      | eraseNone hthread _ _ | release hthread | wake _ hthread | announce hthread =>
        rw [hthread]
        simp only [State.worker_setThread, if_true]
        exact .stay _
    · have hworker : u.worker w' = s.worker w' := by
        generalize threadEvents s w a = evs at he
        cases he <;> simp [State.worker, State.setThread, State.setWorker, hw]
      simp only [completion?, hworker]
      exact .stay _

/-- The scheduler thread does not complete tasks. -/
theorem loopEffect_completion (h : LoopEffect s evs u) (r : Reporter) :
    completion? u r = completion? s r := by
  cases r with
  | cancel =>
    simp only [completion?]
    cases h with
    | rest => rfl
    | peek hfree _ _ =>
      rw [hfree]
      rfl
    | spec hholder _ | observe _ hholder _ | choose hholder | skip hholder | select hholder _
    | giveUp hholder _ | reserve hholder _ _ | acquire hholder _ | handler hholder _
    | token hholder | pop hholder _ | mark _ hholder _ _ | dispatch hholder _ _ _ _ =>
      rw [hholder]
      rfl
  | worker w =>
    have hthread : (u.worker w).thread = (s.worker w).thread := by
      cases h with
      | reserve | dispatch =>
        simp only [State.worker, State.setTry, State.tryReturns, State.setWorker,
          WorkerPool.workers_set]
        split
        · rename_i he
          rw [he]
        · rfl
      | rest | peek | spec | observe | choose | skip | select | giveUp | acquire | handler | token
      | pop | mark => rfl
    simp only [completion?, hthread]

/-- Starting and stopping workers touches no thread that is inside the callback. -/
theorem poolsEffect_completion {rm : ResourceManager} {pool : WorkerPool}
    (h : PoolsEffect s rm pool) (hs : Slots s.pool s.holder) (w : WorkerID) :
    Thread.completion? (pool.workers w).thread = Thread.completion? (s.worker w).thread := by
  cases h with
  | same | register | closePool => rfl
  | startPool =>
    simp only [WorkerPool.start]
    split
    · rfl
    · simp only [Worker.start, State.worker]
      split
      · split
        · rfl
        · rename_i hdown
          rw [((hs.wellFormed w).down (by simpa using hdown)).2]
          rfl
      · rfl
  | requestStop w' =>
    rw [WorkerPool.workers_set]
    split
    · rename_i he
      rw [he]
      rfl
    · rfl
  | @reset w' hexited hloop =>
    rw [WorkerPool.workers_set]
    split
    · rename_i he
      rw [he, hexited]
      rfl
    · rfl

theorem step_completion {a : Action} (h : step s a = some u) (hi : Inv s) (r : Reporter) :
    CompletionStep s a u r (completion? s r) (completion? u r) := by
  cases a with
  | call a => exact callStep_completion h hi r
  | loop a =>
    rw [loopEffect_completion (loopEffect h hi.unfailing) r]
    exact .stay _
  | thread w a => exact threadStep_completion h hi r
  | lifecycle a =>
    have he := lifecycleEffect h hi.stage
    have hsame : completion? u r = completion? s r := by
      cases r with
      | cancel => simp only [completion?, he.holder]
      | worker w => exact poolsEffect_completion he.pools hi.slots w
    rw [hsame]
    exact .stay _
  | wake waiter =>
    obtain rfl := step_wake h
    cases r <;> exact .stay _

/-- The thread that is back from the callback has no completion any more. -/
theorem leaves_completion {a : Action} (h : step s a = some u) {r : Reporter}
    (hl : leaves s a = some r) : completion? u r = none := by
  simp only [leaves] at hl
  split at hl
  · rename_i w
    cases hl
    simp only [step, threadStep] at h
    split at h
    · cases h
      simp only [completion?, State.worker_setThread, if_true]
      rfl
    · cases h
  · cases hc : completion? s .cancel with
    | none => simp [hc] at hl
    | some completion =>
      simp only [hc, Option.map_some, Option.some.injEq] at hl
      subst hl
      simp only [step, callStep] at h
      split at h
      · obtain ⟨sleeping, -, rfl⟩ := Option.map_eq_some_iff.mp h
        rfl
      · cases h
        rfl
      · cases h
  · cases hl

/-- A task whose completion is with the callback is terminal. -/
def Completed (s : State) : Prop := ∀ r completion, completion? s r = some completion →
  ∃ x, stateOf s.taskManager completion.taskId = some x ∧ x.isTerminal = true

theorem completed_initial (workerIds : List WorkerID) (capacity : ResourceSet) (callback : Bool) :
    Completed (.initial workerIds capacity callback) := by
  intro r completion h
  cases r <;> cases h

/-- A terminal task stays terminal. -/
theorem TaskStep.terminal {t : TaskID} {x y : Option ExecutionState}
    (h : TaskStep submitting holder t x y) (hx : ∃ z, x = some z ∧ z.isTerminal = true) : y = x := by
  obtain ⟨z, rfl, hz⟩ := hx
  cases h with
  | stay => rfl
  | queue => cases hz
  | advance hactive _ =>
    rw [ExecutionState.isTerminal_eq_false hactive] at hz
    cases hz

/-- A record is never taken out. -/
theorem TaskStep.kept {t : TaskID} {x : ExecutionState} {y : Option ExecutionState}
    (h : TaskStep submitting holder t (some x) y) : ∃ z, y = some z := by
  cases h with
  | stay | queue | advance => exact ⟨_, rfl⟩

theorem step_completed {a : Action} (h : step s a = some u) (hi : Inv s) (hc : Completed s) :
    Completed u := by
  intro r completion hr
  have hstep := step_completion h hi r
  rw [hr] at hstep
  generalize hs : completion? s r = before at hstep
  cases hstep with
  | stay =>
    have hterm := hc r completion hs
    rw [(step_taskStep h hi completion.taskId).terminal hterm]
    exact hterm
  | start _ _ hdone hy => exact ⟨_, hdone, hy⟩

end LocalSystem

end AgentRuntime
