import AgentRuntime.Local.TaskHistory

/-!
# The end of a task

A task becomes terminal in the hands of one thread, which then has a completion
that says what the record says. The record does not change any more.
-/
namespace AgentRuntime

namespace LocalSystem

variable {s u : State}

/-- What a step can do to the record of a task, as far as its end is concerned. -/
inductive EndStep (s u : State) (t : TaskID) : Prop where
  | same (hrecord : u.record t = s.record t)
  | live {own} (hbefore : ∀ old, s.record t = some old → old.state.isTerminal = false)
      (hown : u.record t = some own) (hlive : own.state.isTerminal = false)
  | ended {r old own} (hold : s.record t = some old) (hactive : old.state.isActive = true)
      (hown : u.record t = some own) (hterm : own.state.isTerminal = true)
      (hnone : completion? s r = none)
      (htold : completion? u r = s.taskManager.notification own)
      (hothers : ∀ r', r' ≠ r → completion? u r' = completion? s r')

theorem lookup_store_record {tm : TaskManager} {id t : TaskID} {own : TaskRecord}
    (hu : u.taskManager = tm.store id own) (htm : s.taskManager = tm) :
    u.record t = if t = id then some own else s.record t := by
  simp only [State.record, hu, htm, TaskManager.lookup_store]

/-- A record that is stored without being terminal. -/
theorem endStep_live {id : TaskID} {own : TaskRecord}
    (hu : u.taskManager = s.taskManager.store id own) (hlive : own.state.isTerminal = false)
    (hbefore : ∀ old, s.record id = some old → old.state.isTerminal = false) (t : TaskID) :
    EndStep s u t := by
  have hrecord := lookup_store_record (t := t) hu rfl
  by_cases ht : t = id
  · subst ht
    exact .live hbefore (hrecord.trans (if_pos rfl)) hlive
  · exact .same (hrecord.trans (if_neg ht))

/-- The record of an active task is stored with an end of the task. -/
theorem endStep_ended {id : TaskID} {old own : TaskRecord} {r : Reporter}
    (hu : u.taskManager = s.taskManager.store id own) (hold : s.record id = some old)
    (hactive : old.state.isActive = true) (hterm : own.state.isTerminal = true)
    (hnone : completion? s r = none) (htold : completion? u r = s.taskManager.notification own)
    (hothers : ∀ r', r' ≠ r → completion? u r' = completion? s r') (t : TaskID) :
    EndStep s u t := by
  have hrecord := lookup_store_record (t := t) hu rfl
  by_cases ht : t = id
  · subst ht
    exact .ended hold hactive (hrecord.trans (if_pos rfl)) hterm hnone htold hothers
  · exact .same (hrecord.trans (if_neg ht))

theorem before_of_record {t : TaskID} {record : TaskRecord} (hrecord : s.record t = some record)
    (hlive : record.state.isTerminal = false) (old : TaskRecord) (hold : s.record t = some old) :
    old.state.isTerminal = false := by
  rw [hrecord] at hold
  cases hold
  exact hlive

/-! ## One step -/

theorem cancelTask_of_report {a : CallAction} {k k' : Nat} {t : TaskID} {queued queued' : Bool}
    {completion : Option TaskCompletion} (h : callStep s a = some u)
    (hs : s.holder = some (.cancelTask k t queued))
    (hu : u.holder = some (.cancelReport k' queued' completion)) :
    u = cancelTask s k t queued := by
  cases a with
  | submitBegin k spec handler =>
    rw [callStep_holder_submit h (.inr ⟨_, _, _, rfl⟩), hs] at hu
    cases hu
  | submitRegister =>
    rw [callStep_holder_submit h (.inl rfl), hs] at hu
    cases hu
  | cancelTask =>
    simp only [callStep, hs] at h
    exact (Option.some.inj h).symm
  | enqueueBegin | enqueueMark | enqueuePush | cancelBegin | cancelRemove | cancelReturn
  | drainBegin | drainWait => simp [callStep, hs] at h

theorem callStep_end {a : CallAction} (h : callStep s a = some u) (hi : Inv s) (t : TaskID) :
    EndStep s u t := by
  have he := callEffect h hi.unfailing
  have hcancel : ∀ k t queued k' queued' completion, s.holder = some (.cancelTask k t queued) →
      u.holder = some (.cancelReport k' queued' completion) → u = cancelTask s k t queued :=
    fun _ _ _ _ _ _ hs hu => cancelTask_of_report h hs hu
  generalize hsh : s.holder = holder at he hcancel
  generalize huh : u.holder = holder' at he hcancel
  generalize htm : u.taskManager = tm' at he
  generalize hqueue : u.queue = queue' at he
  cases he with
  | register _ _ hnew =>
    refine endStep_live htm rfl (fun old hold => ?_) t
    rw [State.record, hnew] at hold
    cases hold
  | markQueued hrecord hpending =>
    exact endStep_live htm rfl (before_of_record hrecord (by rw [hpending]; rfl)) t
  | cancelRunning hrecord hrunning =>
    refine endStep_live htm ?_ (before_of_record hrecord (by rw [hrunning]; rfl)) t
    rw [hrunning]
    rfl
  | @cancelQueued k t' queued record completion hrecord hqueued hcompletion =>
    obtain rfl := hcancel k t' queued k queued completion rfl rfl
    have htold : completion? (cancelTask s k t' queued) .cancel =
        s.taskManager.notification (TaskManager.cancelledRecord record) := by
      obtain ⟨_, hno, -, hnot⟩ | ⟨record', hrecord', -, hdone⟩ | ⟨record', hrecord', hrunning, -⟩ :=
        s.taskManager.cancel_cases t'
      · exact absurd hqueued (hnot record hrecord).1
      · rw [hrecord] at hrecord'
        cases hrecord'
        simp [cancelTask, hdone, completion?, Holder.completion?]
      · rw [hrecord] at hrecord'
        cases hrecord'
        rw [hqueued] at hrunning
        cases hrunning
    have hothers : ∀ r, r ≠ .cancel →
        completion? (cancelTask s k t' queued) r = completion? s r := by
      intro r hr
      cases r with
      | cancel => exact absurd rfl hr
      | worker w => simp only [completion?, State.worker, (callFrame h).pool]
    exact endStep_ended htm hrecord (by rw [hqueued]; rfl) rfl
      (by simp [completion?, hsh, Holder.completion?]) htold hothers t
  | same | beginEnqueue | beginRemove | beginCancel | push | remove | refuseEnqueue
  | refuseCancel | «return» => exact .same (by simp only [State.record, htm])

theorem complete_of_finished {w : WorkerID} {a : ThreadAction} {work : WorkItem}
    {outcome : ExecutionOutcome} (h : threadStep s w a = some u)
    (hs : (s.worker w).thread = .finished work outcome) : u = complete s w work outcome := by
  cases a with
  | complete =>
    simp only [threadStep, hs] at h
    exact (Option.some.inj h).symm
  | take => simp [threadStep, Worker.take, hs] at h
  | _ => simp [threadStep, hs] at h

theorem threadStep_end {w : WorkerID} {a : ThreadAction} (h : threadStep s w a = some u)
    (hi : Inv s) (t : TaskID) : EndStep s u t := by
  have he := threadEffect h hi.unfailing
  have hcomplete : ∀ work outcome, (s.worker w).thread = .finished work outcome →
      u = complete s w work outcome := fun _ _ hs => complete_of_finished h hs
  generalize threadEvents s w a = evs at he
  cases he with
  | markRunning _ hrecord hscheduled =>
    exact endStep_live rfl rfl (before_of_record hrecord (by rw [hscheduled]; rfl)) t
  | @complete work outcome record after hthread hrecord hrunning _ =>
    have hu := hcomplete work outcome hthread
    have hothers : ∀ r, r ≠ .worker w → completion? (complete s w work outcome) r =
        completion? s r := by
      intro r hr
      cases r with
      | cancel => rfl
      | worker w' =>
        have hw : w' ≠ w := fun he => hr (by rw [he])
        simp only [completion?, complete, State.worker_setThread, if_neg hw]
        rfl
    rw [← hu] at hothers
    refine endStep_ended rfl hrecord (by rw [hrunning]; rfl)
      (TaskManager.isTerminal_terminalState outcome.status) (by simp [completion?, hthread,
        Thread.completion?]) ?_ hothers t
    rw [hu]
    obtain ⟨_, -, -, hnot⟩ | ⟨record', hrecord', -, done, rfl, hdone⟩ :=
      s.taskManager.complete_cases work.spec.id outcome
    · have hlegal := hnot record hrecord
      rw [hrunning, TaskManager.legal_terminalState] at hlegal
      cases hlegal
    · rw [show s.taskManager.records.lookup work.spec.id = some record from hrecord] at hrecord'
      cases hrecord'
      simp only [complete, hdone, completion?, State.worker_setThread, if_true]
      split
      · rename_i completion hnotified
        rw [hnotified]
        rfl
      · rename_i hnotified
        rw [hnotified]
        rfl
  | take | leave | invoke | leaveHandler | reported | becomeIdle | erase | eraseNone | release
  | wake | announce => exact .same rfl

theorem loopEffect_end {evs : List Event} (h : LoopEffect s evs u) (t : TaskID) :
    EndStep s u t := by
  cases h with
  | mark _ _ hrecord hqueued =>
    exact endStep_live rfl rfl (before_of_record hrecord (by rw [hqueued]; rfl)) t
  | rest | peek | spec | observe | choose | skip | select | giveUp | reserve | acquire | handler
  | token | pop | dispatch => exact .same rfl

theorem step_end {a : Action} (h : step s a = some u) (hi : Inv s) (t : TaskID) :
    EndStep s u t := by
  cases a with
  | call a => exact callStep_end h hi t
  | loop a => exact loopEffect_end (loopEffect h hi.unfailing) t
  | thread w a => exact threadStep_end h hi t
  | lifecycle a =>
    have he := lifecycleEffect h hi.stage
    exact .same (by simp only [State.record, he.taskManager])
  | wake waiter =>
    obtain rfl := step_wake h
    exact .same rfl

/-- Nobody takes the callback away. -/
theorem step_completionCallback {a : Action} (h : step s a = some u) (hi : Inv s) :
    u.taskManager.completionCallback = s.taskManager.completionCallback := by
  cases a with
  | call a =>
    have he := callEffect h hi.unfailing
    generalize s.holder = holder at he
    generalize u.holder = holder' at he
    generalize htm : u.taskManager = tm' at he
    generalize u.queue = queue' at he
    cases he <;> rfl
  | loop a =>
    have he := loopEffect h hi.unfailing
    generalize loopEvents s a = evs at he
    cases he <;> rfl
  | thread w a =>
    have he := threadEffect h hi.unfailing
    generalize threadEvents s w a = evs at he
    cases he <;> rfl
  | lifecycle a => rw [(lifecycleEffect h hi.stage).taskManager]
  | wake waiter =>
    obtain rfl := step_wake h
    rfl

/-! ## What the callback is told -/

/-- A completion says what the record says, which is terminal. -/
def Told (s : State) : Prop := ∀ r completion, completion? s r = some completion →
  ∃ own, s.record completion.taskId = some own ∧ own.state.isTerminal = true ∧
    completion = TaskManager.completionOf own

theorem told_initial (workerIds : List WorkerID) (capacity : ResourceSet) (callback : Bool) :
    Told (.initial workerIds capacity callback) := by
  intro r completion h
  cases r <;> cases h

theorem stateOf_record (s : State) (t : TaskID) :
    stateOf s.taskManager t = (s.record t).map TaskRecord.state := rfl

theorem step_told {a : Action} (h : step s a = some u) (hi : Inv s) (ht : Told s) : Told u := by
  intro r completion hr
  have hstep := step_completion h hi r
  rw [hr] at hstep
  generalize hs : completion? s r = before at hstep
  cases hstep with
  | stay =>
    obtain ⟨own, hown, hterm, hsays⟩ := ht r completion hs
    have hlive : ∀ {old}, s.record completion.taskId = some old →
        old.state.isTerminal = false → False := by
      intro old hold hno
      rw [hown] at hold
      cases hold
      rw [hterm] at hno
      cases hno
    cases step_end h hi completion.taskId with
    | same hrecord => exact ⟨own, hrecord.trans hown, hterm, hsays⟩
    | live hbefore => exact (hlive hown (hbefore own hown)).elim
    | ended hold hactive =>
      exact (hlive hold (ExecutionState.isTerminal_eq_false hactive)).elim
  | start hactive hx hdone hy =>
    rw [stateOf_record] at hactive hdone
    cases step_end h hi completion.taskId with
    | same hrecord =>
      rw [hrecord, hactive] at hdone
      cases hdone
      rw [ExecutionState.isTerminal_eq_false hx] at hy
      cases hy
    | live _ hown hlive =>
      rw [hown] at hdone
      cases hdone
      rw [hlive] at hy
      cases hy
    | @ended r' old own hold _ hown hterm hnone htold hothers =>
      by_cases hsame : r = r'
      · subst hsame
        rw [hr] at htold
        exact ⟨own, hown, hterm, TaskManager.notification_some htold.symm⟩
      · rw [hothers r hsame, hs] at hr
        cases hr

/-- A task that becomes terminal leaves its completion with a thread, if there is a callback. -/
theorem step_tells {a : Action} (h : step s a = some u) (hi : Inv s)
    (hcallback : s.taskManager.completionCallback = true) {t : TaskID} {y : ExecutionState}
    (hy : stateOf u.taskManager t = some y) (hterm : y.isTerminal = true) :
    stateOf s.taskManager t = some y ∨ ∃ r completion, completion? s r = none ∧
      completion? u r = some completion ∧ completion.taskId = t := by
  rw [stateOf_record] at hy ⊢
  cases step_end h hi t with
  | same hrecord => exact .inl (hrecord ▸ hy)
  | live _ hown hlive =>
    rw [hown] at hy
    cases hy
    rw [hlive] at hterm
    cases hterm
  | @ended r old own hold _ hown _ hnone htold _ =>
    simp only [TaskManager.notification, hcallback, if_true] at htold
    refine .inr ⟨r, _, hnone, htold, ?_⟩
    exact ((step_inv h hi).agreement.records t own hown).1

end LocalSystem

end AgentRuntime
