import AgentRuntime.Library.Dispatcher
import AgentRuntime.Local.Prompting

/-!
# The local runtime is a dispatcher

Seen through the records of the tasks, the threads of the runtime do nothing but
what a dispatcher does in one step each: a task is accepted where it is marked
queued, assigned where it is marked scheduled, and withdrawn where `Cancel` finds
it queued. The queue, the mailboxes and the mutexes are how it is done.
-/
namespace AgentRuntime

namespace LocalSystem

/-- What `GetResult` can be told of a terminal task. -/
abbrev Outcome := ExecutionState × Status × ByteString

/-- The phase of a job with the record. A task that is only registered is no job yet. -/
def jobPhase (record : TaskRecord) : Option (Dispatcher.Phase WorkerID Outcome) :=
  match record.state with
  | .pending => none
  | .queued => some .waiting
  | .scheduled => record.worker.map .assigned
  | .running => record.worker.map (fun w => .running w record.cancelRequested)
  | .succeeded | .failed | .cancelled =>
    some (.done (record.state, record.terminalStatus, record.result))

/-- What `Cancel` does to a job in the state. -/
def cancelActions (t : TaskID) :
    Option ExecutionState → List (Dispatcher.Action TaskID WorkerID Outcome)
  | some .queued =>
    [.withdraw t (.cancelled, .Cancelled "task cancelled before execution", [])]
  | some .running => [.requestStop t]
  | _ => []

/-- What a section does to the jobs. -/
def jobActions (s : State) : Action → List (Dispatcher.Action TaskID WorkerID Outcome)
  | .call .enqueueMark =>
    match s.holder with
    | some (.enqueueMark _ t) => if (s.taskManager.markQueued t).1.ok then [.accept t] else []
    | _ => []
  | .call .cancelTask =>
    match s.holder with
    | some (.cancelTask _ t _) => cancelActions t ((s.record t).map TaskRecord.state)
    | _ => []
  | .loop (.tryMark executionId) =>
    match s.holder with
    | some (.scheduling (.marking p _ _)) =>
      if (s.taskManager.markScheduled p.task p.worker executionId).1.ok then
        [.assign p.task p.worker]
      else []
    | _ => []
  | .thread w .markRunning =>
    match (s.worker w).thread with
    | .taken work =>
      if (s.taskManager.markRunning work.spec.id).1.ok then [.start work.spec.id] else []
    | _ => []
  | .thread w .complete =>
    match (s.worker w).thread with
    | .finished work outcome =>
      if (s.taskManager.complete work.spec.id outcome).1.ok then
        [.finish work.spec.id
          (TaskManager.terminalState outcome.status, outcome.status, outcome.result)]
      else []
    | _ => []
  | _ => []

/-- The line of the waiting jobs, of which the owner of `Scheduler::mu_` may be moving one. -/
def Holder.Line (line : List TaskID) (queue : TaskQueue) : Option Holder → Prop
  | some (.enqueuePush _ t) => line = queue ++ [t]
  | some (.cancelTask _ t true) => t ∈ line ∧ line.erase t = queue
  | some (.scheduling (.marking p _ _)) => line = p.task :: queue
  | _ => line = queue

/-- Nobody has asked to cancel a task that is not running yet. -/
def Unasked (record : TaskRecord) : Prop :=
  record.state = .pending ∨ record.state = .queued ∨ record.state = .scheduled →
    record.cancelRequested = false

/-- The jobs are the records, and the line is the queue. -/
structure Dispatches (x : Dispatcher.State TaskID WorkerID Outcome) (s : State) : Prop where
  wellFormed : Dispatcher.WellFormed x
  phase : ∀ t, x.phase t = (s.record t).bind jobPhase
  line : Holder.Line x.line s.queue s.holder
  unasked : ∀ t record, s.record t = some record → Unasked record

theorem dispatches_initial (workerIds : List WorkerID) (capacity : ResourceSet)
    (callback : Bool) : Dispatches .empty (.initial workerIds capacity callback) where
  wellFormed := Dispatcher.wellFormed_empty
  phase t := by simp [Dispatcher.State.empty, State.record, State.initial]
  line := rfl
  unasked t record h := by simp [State.record, State.initial] at h

variable {x y : Dispatcher.State TaskID WorkerID Outcome} {s u : State} {evs : List Event}

/-- A step in which one job goes on. -/
theorem Dispatches.step (h : Dispatches x s) (record : TaskRecord)
    {a : Dispatcher.Action TaskID WorkerID Outcome}
    (ha : Dispatcher.step x a = some y) {t : TaskID}
    {phase : Dispatcher.Phase WorkerID Outcome}
    (hphase : y.phase = (x.setPhase t phase).phase) (hjob : jobPhase record = some phase)
    (htm : u.taskManager = s.taskManager.store t record)
    (hunasked : Unasked record) (hline : Holder.Line y.line u.queue u.holder) :
    Dispatches y u where
  wellFormed := Dispatcher.step_wellFormed ha h.wellFormed
  phase t' := by
    rw [hphase, Dispatcher.phase_setPhase, State.record, htm, TaskManager.lookup_store]
    split
    · exact hjob.symm
    · exact h.phase t'
  line := hline
  unasked t' record' hl := by
    rw [State.record, htm, TaskManager.lookup_store] at hl
    split at hl
    · cases hl
      exact hunasked
    · exact h.unasked t' record' hl

theorem Dispatches.phase_of_record (h : Dispatches x s) {t : TaskID} {record : TaskRecord}
    (hl : s.record t = some record) : x.phase t = jobPhase record := by
  rw [h.phase, hl]
  rfl

/-- A running task is served by the worker that its record names. -/
theorem Dispatches.running (h : Dispatches x s) (hi : Inv s) {t : TaskID} {record : TaskRecord}
    (hl : s.record t = some record) (hs : record.state = .running) : ∃ w,
      record.worker = some w ∧ x.phase t = some (.running w record.cancelRequested) := by
  obtain ⟨w, hw⟩ := Option.isSome_iff_exists.mp (hi.ownership.assigned t record hl (.inr hs))
  exact ⟨w, hw, by rw [h.phase_of_record hl]; simp [jobPhase, hs, hw]⟩

/-! ## Calls -/

/-- What a section of a call does to the jobs. -/
def Advances (x : Dispatcher.State TaskID WorkerID Outcome) (s : State) (a : Action)
    (u : State) : Prop :=
  ∃ y, Run.run Dispatcher.step (jobActions s a) x = some y ∧ Dispatches y u

/-- A section in which nothing happens to the jobs. -/
theorem Dispatches.stays (h : Dispatches x s) {a : Action} (ha : jobActions s a = [])
    (htm : u.taskManager = s.taskManager) (hline : Holder.Line x.line u.queue u.holder) :
    Advances x s a u := by
  refine ⟨x, by rw [ha]; rfl, h.wellFormed, fun t => ?_, hline, fun t record hl => ?_⟩
  · rw [State.record, htm]
    exact h.phase t
  · rw [State.record, htm] at hl
    exact h.unasked t record hl

theorem advances_one {a : Action} {b : Dispatcher.Action TaskID WorkerID Outcome}
    (ha : jobActions s a = [b]) (hb : Dispatcher.step x b = some y) (h : Dispatches y u) :
    Advances x s a u := ⟨y, by rw [ha]; simp [hb], h⟩

theorem enqueueMark_advances {k : Nat} {t : TaskID} (hd : Dispatches x s)
    (hholder : s.holder = some (.enqueueMark k t)) :
    Advances x s (.call .enqueueMark) (enqueueMark s k t) := by
  have hline : x.line = s.queue := by
    have := hd.line
    rwa [hholder] at this
  obtain ⟨status, hno, heq, -⟩ | ⟨record, hl, hpending, heq⟩ :=
    s.taskManager.mark_cases t "task is not registered" .queued (fun record => record)
  · have heq : s.taskManager.markQueued t = (status, s.taskManager) := heq
    simp only [enqueueMark, heq, hno, Bool.false_eq_true, if_false]
    exact hd.stays (by simp [jobActions, hholder, heq, hno]) rfl hline
  · have heq : s.taskManager.markQueued t =
        (.OK, s.taskManager.store t { record with state := .queued }) := heq
    have hnew : x.phase t = none := by
      rw [hd.phase_of_record hl]
      simp [jobPhase, (TaskManager.legal_queued _).mp hpending]
    have hstep : Dispatcher.step x (.accept t) =
        some { x.setPhase t .waiting with line := x.line ++ [t] } := by
      simp [Dispatcher.step, hnew]
    simp only [enqueueMark, heq, Status.ok_OK, if_true]
    refine advances_one (by simp [jobActions, hholder, heq]) hstep
      (hd.step _ hstep rfl rfl rfl ?_ ?_)
    · exact fun _ => hd.unasked t record hl (.inl ((TaskManager.legal_queued _).mp hpending))
    · simp [Holder.Line, hline]

theorem cancelTask_advances {k : Nat} {t : TaskID} {queued : Bool} (hd : Dispatches x s)
    (hi : Inv s) (hholder : s.holder = some (.cancelTask k t queued)) :
    Advances x s (.call .cancelTask) (cancelTask s k t queued) := by
  obtain ⟨status, hno, heq, hstate⟩ | ⟨record, hl, hqueued, heq⟩ | ⟨record, hl, hrunning, heq⟩ :=
    s.taskManager.cancel_cases t
  · -- the task is neither queued nor running, so it was not found queued either
    have hfalse : queued = false := by
      cases queued with
      | false => rfl
      | true =>
        have := hi.cancel_ok hholder
        rw [heq, hno] at this
        cases this
    subst hfalse
    have hline := hd.line
    rw [hholder] at hline
    simp only [cancelTask, heq, hno, Bool.false_eq_true, if_false]
    refine hd.stays ?_ rfl hline
    simp only [jobActions, hholder]
    cases hl : s.record t with
    | none => rfl
    | some record =>
      obtain ⟨hq, hr⟩ := hstate record hl
      simp only [Option.map_some]
      cases hs : record.state with
      | queued => exact absurd hs hq
      | running => exact absurd hs hr
      | pending | scheduled | succeeded | failed | cancelled => rfl
  · have htrue : queued = true := by
      cases queued with
      | true => rfl
      | false => exact absurd ⟨record, hl, hqueued⟩ (hi.queueing.cancelling k t hholder)
    subst htrue
    have hline := hd.line
    rw [hholder] at hline
    have hwaiting : x.phase t = some .waiting := by
      rw [hd.phase_of_record hl]
      simp [jobPhase, hqueued]
    have hstep : Dispatcher.step x
        (.withdraw t (.cancelled, .Cancelled "task cancelled before execution", [])) =
          some { x.setPhase t (.done (.cancelled, .Cancelled "task cancelled before execution", []))
            with line := x.line.erase t } := by
      simp [Dispatcher.step, hwaiting]
    simp only [cancelTask, heq, Status.ok_OK, if_true]
    refine advances_one ?_ hstep (hd.step (TaskManager.cancelledRecord record) hstep rfl rfl
      rfl (fun hs => ?_) hline.2)
    · simp only [jobActions, hholder, State.record, hl, Option.map_some, hqueued, cancelActions]
    · simp [TaskManager.cancelledRecord] at hs
  · have hfalse : queued = false := by
      cases queued with
      | false => rfl
      | true =>
        obtain ⟨record', hl', hqueued⟩ := hi.unfailing.holder _ hholder
        rw [State.record, hl] at hl'
        cases hl'
        rw [hrunning] at hqueued
        cases hqueued
    subst hfalse
    have hline := hd.line
    rw [hholder] at hline
    obtain ⟨w, hw, hphase⟩ := hd.running hi hl hrunning
    have hstep : Dispatcher.step x (.requestStop t) = some (x.setPhase t (.running w true)) := by
      simp [Dispatcher.step, hphase]
    simp only [cancelTask, heq, Status.ok_OK, if_true]
    refine advances_one ?_ hstep (hd.step { record with cancelRequested := true } hstep
      rfl ?_ rfl (fun hs => ?_) hline)
    · simp only [jobActions, hholder, State.record, hl, Option.map_some, hrunning, cancelActions]
    · simp [jobPhase, hrunning, hw]
    · simp [hrunning] at hs

theorem callStep_advances {a : CallAction} (h : callStep s a = some u) (hi : Inv s)
    (hd : Dispatches x s) : Advances x s (.call a) u := by
  have hline := hd.line
  cases a with
  | submitRegister =>
    simp only [callStep] at h
    split at h
    · rename_i k spec handler hlife
      cases h
      obtain ⟨status, hno, heq⟩ | ⟨hnew, -, heq⟩ := s.taskManager.register_cases spec handler
      · simp only [submitRegister, heq, hno, Bool.false_eq_true, if_false]
        exact hd.stays rfl rfl hline
      · -- a registered task is pending, which is no job yet
        simp only [submitRegister, heq, Status.ok_OK, if_true]
        refine ⟨x, rfl, hd.wellFormed, fun t => ?_, hline, fun t record hl => ?_⟩
        · rw [hd.phase]
          simp only [State.record, TaskManager.lookup_store]
          split
          · rename_i heq
            rw [heq, hnew]
            rfl
          · rfl
        · simp only [State.record, TaskManager.lookup_store] at hl
          split at hl
          · cases hl
            exact fun _ => rfl
          · exact hd.unasked t record hl
    · cases h
  | enqueueMark =>
    simp only [callStep] at h
    split at h
    · rename_i hholder
      cases h
      exact enqueueMark_advances hd hholder
    · cases h
  | cancelTask =>
    simp only [callStep] at h
    split at h
    · rename_i hholder
      cases h
      exact cancelTask_advances hd hi hholder
    · cases h
  | enqueuePush =>
    cases callMove h with
    | push hholder =>
      rw [hholder] at hline
      exact hd.stays rfl rfl hline
    | drained | drainSleeps => exact hd.stays rfl rfl hline
  | cancelRemove =>
    cases callMove h with
    | refuseRemove _ hholder =>
      rw [hholder] at hline
      exact hd.stays rfl rfl hline
    | @remove k t hholder hmem =>
      rw [hholder] at hline
      have hline : x.line = s.queue := hline
      refine hd.stays rfl rfl ?_
      simp only [Holder.Line, hline]
      exact ⟨hmem, trivial⟩
    | drained | drainSleeps => exact hd.stays rfl rfl hline
  | cancelReturn =>
    cases callMove h with
    | notify hholder | cancelled hholder =>
      rw [hholder] at hline
      exact hd.stays rfl rfl hline
    | drained | drainSleeps => exact hd.stays rfl rfl hline
  | enqueueBegin =>
    cases callMove h with
    | enterEnqueue _ hfree =>
      rw [hfree] at hline
      exact hd.stays rfl rfl hline
    | refuseEnqueue | drained | drainSleeps => exact hd.stays rfl rfl hline
  | cancelBegin =>
    cases callMove h with
    | beginRemove hfree | beginCancel hfree =>
      rw [hfree] at hline
      exact hd.stays rfl rfl hline
    | notFound | drained | drainSleeps => exact hd.stays rfl rfl hline
  | submitBegin | drainBegin | drainWait =>
    cases callMove h <;> exact hd.stays rfl rfl hline

/-! ## The scheduler thread -/

theorem tryMark_advances {p : Placement} {handler : TaskHandler} {token : TaskID}
    (executionId : ExecutionID) (hd : Dispatches x s) (hi : Inv s)
    (hholder : s.holder = some (.scheduling (.marking p handler token))) :
    Advances x s (.loop (.tryMark executionId)) (tryMark s p handler token executionId) := by
  obtain ⟨record, hl, hqueued⟩ := hi.unfailing.holder _ hholder
  have hmark : s.taskManager.markScheduled p.task p.worker executionId =
      (.OK, s.taskManager.store p.task { record with
        state := .scheduled, attempt := record.attempt + 1, worker := some p.worker,
        executionId := executionId }) := by
    have hl' : s.taskManager.records.lookup p.task = some record := hl
    simp [TaskManager.markScheduled, TaskManager.mark, hl', hqueued]
  have hline : x.line = p.task :: s.queue := by
    have := hd.line
    rwa [hholder] at this
  -- the worker is reserved, so it holds no item
  have hfree : x.serving p.worker = none := by
    by_contra hbusy
    obtain ⟨t, ht⟩ := Option.ne_none_iff_exists'.mp hbusy
    have hserved := (hd.wellFormed.serving t p.worker).mp ht
    rw [hd.phase] at hserved
    cases hr : s.record t with
    | none => simp [hr] at hserved
    | some other =>
      have hheld : (other.state = .scheduled ∨ other.state = .running) ∧
          other.worker = some p.worker := by
        simp only [hr, Option.bind_some, jobPhase] at hserved
        cases hs : other.state with
        | scheduled | running =>
          rw [hs] at hserved
          cases hw : other.worker with
          | none => simp [hw] at hserved
          | some w => simpa [hw, Dispatcher.Phase.server?] using hserved
        | pending | queued | succeeded | failed | cancelled =>
          simp [hs, Dispatcher.Phase.server?] at hserved
      obtain ⟨w, hw, hholding⟩ := hi.ownership.holding_of_record hr hheld.1
      rw [hheld.2] at hw
      cases hw
      have hreserved : (s.pool.workers p.worker).state = .reserved :=
        (hi.slots.reserved p.worker).mpr (by rw [hholder]; rfl)
      have hitem := (hi.slots.wellFormed p.worker).item?_eq_none (by rw [hreserved]; simp)
      simp [holding, hitem, hholder, Holder.inHand] at hholding
  have hstep : Dispatcher.step x (.assign p.task p.worker) =
      some { x.setPhase p.task (.assigned p.worker) with
        line := s.queue, serving := Function.update x.serving p.worker (some p.task) } := by
    simp [Dispatcher.step, hline, hfree]
  simp only [tryMark, hmark, Status.ok_OK, if_true]
  exact advances_one (by simp [jobActions, hholder, hmark]) hstep
    (hd.step _ hstep rfl rfl rfl (fun _ => hd.unasked p.task record hl (.inr (.inl hqueued))) rfl)

theorem loopStep_advances {a : LoopAction} (h : loopStep s a = some u) (hi : Inv s)
    (hd : Dispatches x s) : Advances x s (.loop a) u := by
  have hline := hd.line
  cases a with
  | tryMark executionId =>
    simp only [loopStep] at h
    split at h
    · rename_i hholder
      cases h
      exact tryMark_advances executionId hd hi hholder
    · cases h
  | wait | check | tryBegin | trySpec | tryObserve | trySelect | tryReserve | tryAcquire
  | tryHandler | tryToken | tryPop | tryDispatch | undoRelease | undoReserve =>
    have he := loopEffect h hi.unfailing
    generalize loopEvents s _ = evs at he
    cases he with
    | rest => exact hd.stays rfl rfl hline
    | peek hfree =>
      rw [hfree] at hline
      exact hd.stays rfl rfl hline
    | spec hholder | observe _ hholder | choose hholder | skip hholder | select hholder
    | reserve hholder | acquire hholder | handler hholder | token hholder | dispatch hholder =>
      rw [hholder] at hline
      exact hd.stays rfl rfl hline
    | giveUp hholder hphase =>
      rw [hholder] at hline
      obtain ⟨_, _, _, rfl⟩ | ⟨_, _, rfl⟩ := hphase <;> exact hd.stays rfl rfl hline
    | @pop p handler token rest hholder hqueue =>
      rw [hholder, hqueue] at hline
      exact hd.stays rfl rfl hline
    | mark _ hholder => simp [loopStep, hholder] at h

/-! ## The worker threads -/

theorem markRunning_advances {w : WorkerID} {work : WorkItem} (hd : Dispatches x s) (hi : Inv s)
    (hthread : (s.worker w).thread = .taken work) :
    Advances x s (.thread w .markRunning) (markRunning s w work) := by
  obtain ⟨record, hl, hscheduled, hworker, -⟩ :=
    hi.record_of_thread (w := w) (by rw [hthread]; rfl)
  have hmark : s.taskManager.markRunning work.spec.id =
      (.OK, s.taskManager.store work.spec.id { record with state := .running }) := by
    have hl' : s.taskManager.records.lookup work.spec.id = some record := hl
    simp [TaskManager.markRunning, TaskManager.mark, hl', hscheduled]
  have hphase : x.phase work.spec.id = some (.assigned w) := by
    rw [hd.phase_of_record hl]
    simp [jobPhase, hscheduled, hworker]
  have hfalse := hd.unasked _ record hl (.inr (.inr hscheduled))
  have hstep : Dispatcher.step x (.start work.spec.id) =
      some (x.setPhase work.spec.id (.running w false)) := by
    simp [Dispatcher.step, hphase]
  simp only [markRunning, hmark, Status.ok_OK, if_true]
  refine advances_one (by simp [jobActions, hthread, hmark]) hstep
    (hd.step { record with state := .running } hstep rfl ?_ rfl (fun _ => hfalse)
      hd.line)
  simp [jobPhase, hworker, hfalse]

/-- A completed job is done. -/
theorem jobPhase_of_terminal {record : TaskRecord} (h : record.state.isTerminal = true) :
    jobPhase record = some (.done (record.state, record.terminalStatus, record.result)) := by
  cases hs : record.state with
  | succeeded | failed | cancelled => simp [jobPhase, hs]
  | pending | queued | scheduled | running =>
    rw [hs] at h
    cases h

theorem complete_advances {w : WorkerID} {work : WorkItem} {outcome : ExecutionOutcome}
    (hd : Dispatches x s) (hi : Inv s) (hthread : (s.worker w).thread = .finished work outcome) :
    Advances x s (.thread w .complete) (complete s w work outcome) := by
  obtain ⟨record, hl, hrunning, -, -⟩ := hi.record_of_thread (w := w) (by rw [hthread]; rfl)
  obtain ⟨status, -, -, hno⟩ | ⟨record', hl', -, done, rfl, heq⟩ :=
    s.taskManager.complete_cases work.spec.id outcome
  · have := hno record hl
    rw [hrunning, TaskManager.legal_terminalState] at this
    cases this
  · have hsame : s.taskManager.records.lookup work.spec.id = some record := hl
    rw [hsame] at hl'
    cases hl'
    have hterminal := TaskManager.isTerminal_terminalState outcome.status
    obtain ⟨w', -, hphase⟩ := hd.running hi hl hrunning
    have hstep : Dispatcher.step x (.finish work.spec.id
        (TaskManager.terminalState outcome.status, outcome.status, outcome.result)) =
          some { x.setPhase work.spec.id (.done
            (TaskManager.terminalState outcome.status, outcome.status, outcome.result)) with
              serving := Function.update x.serving w' none } := by
      simp [Dispatcher.step, hphase]
    simp only [complete, heq]
    refine advances_one (by simp [jobActions, hthread, heq]) hstep
      (hd.step _ hstep rfl (jobPhase_of_terminal hterminal) rfl (fun hs => ?_) hd.line)
    obtain hs | hs | hs := hs <;>
      · simp only at hs
        rw [hs] at hterminal
        cases hterminal

theorem threadStep_advances {w : WorkerID} {a : ThreadAction} (h : threadStep s w a = some u)
    (hi : Inv s) (hd : Dispatches x s) : Advances x s (.thread w a) u := by
  cases a with
  | markRunning =>
    simp only [threadStep] at h
    split at h
    · rename_i hthread
      cases h
      exact markRunning_advances hd hi hthread
    · cases h
  | complete =>
    simp only [threadStep] at h
    split at h
    · rename_i hthread
      cases h
      exact complete_advances hd hi hthread
    · cases h
  | take | invoke | leaveHandler | reported | becomeIdle | idleErase | idleRelease | idleWake
  | idleNotify =>
    have he := threadEffect h hi.unfailing
    generalize threadEvents s w _ = evs at he
    cases he with
    | markRunning hthread => simp [threadStep, Worker.take, hthread] at h
    | complete _ hthread => simp [threadStep, Worker.take, hthread] at h
    | _ => exact hd.stays rfl rfl hd.line

/-! ## The result -/

theorem step_advances {a : Action} (h : step s a = some u) (hi : Inv s) (hd : Dispatches x s) :
    Advances x s a u := by
  cases a with
  | call a => exact callStep_advances h hi hd
  | loop a => exact loopStep_advances h hi hd
  | thread w a => exact threadStep_advances h hi hd
  | lifecycle a =>
    have he := lifecycleEffect h hi.stage
    refine hd.stays rfl he.taskManager ?_
    rw [he.queue, he.holder]
    exact hd.line
  | wake waiter =>
    obtain rfl := step_wake h
    exact hd.stays rfl rfl hd.line

/-- What a run does to the jobs. -/
def jobsOf (as : List Action) (s : State) : List (Dispatcher.Action TaskID WorkerID Outcome) :=
  Run.observed step jobActions as s

theorem dispatches_run {workerIds : List WorkerID} {capacity : ResourceSet} {callback : Bool}
    {as : List Action} (h : Run.run step as (.initial workerIds capacity callback) = some s) :
    ∃ x, Run.run Dispatcher.step (jobsOf as (.initial workerIds capacity callback)) .empty =
      some x ∧ Dispatches x s := by
  have hkept : ∀ (seen : List (Dispatcher.Action TaskID WorkerID Outcome)) (s : State)
      (a : Action) (u : State),
      (Inv s ∧ ∃ x, Run.run Dispatcher.step seen .empty = some x ∧ Dispatches x s) → True →
      step s a = some u → Inv u ∧
        ∃ x, Run.run Dispatcher.step (seen ++ jobActions s a) .empty = some x ∧
          Dispatches x u := by
    rintro seen s a u ⟨hi, x, hx, hd⟩ - hstep
    obtain ⟨y, hy, hdy⟩ := step_advances hstep hi hd
    exact ⟨step_inv hstep hi, y, Run.run_append_some hx hy, hdy⟩
  have hnew : Inv (.initial workerIds capacity callback) ∧ ∃ x,
      Run.run Dispatcher.step [] .empty = some x ∧
        Dispatches x (.initial workerIds capacity callback) :=
    ⟨inv_initial workerIds capacity callback, .empty, rfl,
      dispatches_initial workerIds capacity callback⟩
  exact (Run.invariant_observed hkept (Run.along_true as _) h hnew).2

/-- A dispatcher that has done the same is in the state that the records show, and between two
sections its line is the queue. -/
theorem refines_dispatcher {workerIds : List WorkerID} {capacity : ResourceSet}
    {callback : Bool} {as : List Action}
    (h : Run.run step as (.initial workerIds capacity callback) = some s) :
    ∃ x, Run.run Dispatcher.step (jobsOf as (.initial workerIds capacity callback)) .empty =
        some x ∧ Dispatcher.WellFormed x ∧ (∀ t, x.phase t = (s.record t).bind jobPhase) ∧
      (s.holder = none → x.line = s.queue) := by
  obtain ⟨x, hx, hd⟩ := dispatches_run h
  refine ⟨x, hx, hd.wellFormed, hd.phase, fun hfree => ?_⟩
  have hline := hd.line
  rwa [hfree] at hline

namespace Sample

/-- The first of two tasks completes, and the second is still queued. -/
def oneOfTwo : List Action :=
  start ++ submit 1 (spec 1) none ++ submit 2 (spec 2) none ++ [.loop .wait] ++
    schedule (.ofByte 1) ++ execute

end Sample

set_option maxRecDepth 4000 in
theorem refines_dispatcher_one_of_two :
    ∃ x, Run.run Dispatcher.step (jobsOf Sample.oneOfTwo Sample.runtime) .empty = some x ∧
      x.phase (Sample.task 1) = some (.done (.succeeded, .OK, [])) ∧
      x.phase (Sample.task 2) = some .waiting ∧ x.line = [Sample.task 2] := by
  have hrun : Run.run step Sample.oneOfTwo Sample.runtime =
      some (Run.stateAfter step Sample.oneOfTwo Sample.runtime) := Run.run_stateAfter (by decide)
  obtain ⟨x, hx, -, hphase, hline⟩ := refines_dispatcher hrun
  exact ⟨x, hx, hphase _, hphase _, hline rfl⟩

/-! ## A single worker -/

theorem step_workerIds {a : Action} (h : step s a = some u) (hi : Inv s) :
    u.pool.workerIds = s.pool.workerIds := by
  cases a with
  | call a => rw [(callFrame h).pool]
  | loop a =>
    have he := loopEffect h hi.unfailing
    generalize loopEvents s a = evs at he
    cases he <;> rfl
  | thread w a =>
    have he := threadEffect h hi.unfailing
    generalize threadEvents s w a = evs at he
    cases he <;> rfl
  | lifecycle a => exact (lifecycleEffect h hi.stage).pools.canFitTotal.1
  | wake waiter =>
    obtain rfl := step_wake h
    rfl

/-- A task is only assigned to a worker of the pool. -/
theorem assign_listed {a : Action} {t : TaskID} {w : WorkerID} (hi : Inv s)
    (h : .assign t w ∈ jobActions s a) : w ∈ s.pool.workerIds := by
  cases a with
  | loop a =>
    cases a with
    | tryMark executionId =>
      simp only [jobActions] at h
      split at h
      · rename_i p handler token hholder
        split at h
        · simp only [List.mem_singleton, Dispatcher.Action.assign.injEq] at h
          obtain ⟨-, rfl⟩ := h
          -- the worker is reserved, and so it has been started
          have hreserved : (s.worker p.worker).state = .reserved :=
            (hi.slots.reserved p.worker).mpr (by rw [hholder]; rfl)
          refine hi.slots.listed p.worker ?_
          by_contra hno
          have hdown := ((hi.slots.wellFormed p.worker).down (by simpa using hno)).1
          exact absurd (hdown.symm.trans hreserved) (by decide)
        · cases h
      · cases h
    | _ => simp [jobActions] at h
  | call a =>
    cases a with
    | enqueueMark =>
      simp only [jobActions] at h
      split at h
      · split at h <;> simp at h
      · cases h
    | cancelTask =>
      simp only [jobActions] at h
      split at h
      · simp only [cancelActions] at h
        split at h <;> simp at h
      · cases h
    | _ => simp [jobActions] at h
  | thread w' a =>
    cases a with
    | markRunning | complete =>
      simp only [jobActions] at h
      split at h
      · split at h <;> simp at h
      · cases h
    | _ => simp [jobActions] at h
  | lifecycle a => simp [jobActions] at h
  | wake waiter => simp [jobActions] at h

/-- The workers that are given tasks are those of the pool. -/
theorem jobsOf_only (w : WorkerID) (capacity : ResourceSet) (callback : Bool)
    (as : List Action) : ∀ a ∈ jobsOf as (.initial [w] capacity callback), Dispatcher.Only w a := by
  intro a hmem
  obtain ⟨pre, b, post, t, u, -, ht, -, hb⟩ := Run.mem_observed hmem
  have hkept : ∀ (s : State) (a : Action) (u : State), Inv s ∧ s.pool.workerIds = [w] →
      step s a = some u → Inv u ∧ u.pool.workerIds = [w] := fun s a u hs hstep =>
    ⟨step_inv hstep hs.1, (step_workerIds hstep hs.1).trans hs.2⟩
  have hids := Run.invariant_run hkept ht ⟨inv_initial [w] capacity callback, rfl⟩
  cases a with
  | assign t' w' =>
    have hlisted := assign_listed hids.1 hb
    rw [hids.2] at hlisted
    exact List.mem_singleton.mp hlisted
  | _ => trivial

/-- A task that has been given a worker and is not done. -/
def State.Dispatched (s : State) (t : TaskID) : Prop :=
  ∃ record, s.record t = some record ∧ (record.state = .scheduled ∨ record.state = .running)

theorem Dispatches.dispatched_iff (h : Dispatches x s) (hi : Inv s) (t : TaskID) :
    s.Dispatched t ↔ ∃ w, x.serving w = some t := by
  simp only [h.wellFormed.serving, h.phase]
  constructor
  · rintro ⟨record, hl, hstate⟩
    obtain ⟨w, hw⟩ := Option.isSome_iff_exists.mp (hi.ownership.assigned t record hl hstate)
    refine ⟨w, ?_⟩
    obtain hs | hs := hstate <;> simp [hl, jobPhase, hs, hw, Dispatcher.Phase.server?]
  · rintro ⟨w, hw⟩
    cases hl : s.record t with
    | none => simp [hl] at hw
    | some record =>
      refine ⟨record, hl, ?_⟩
      cases hs : record.state <;> simp [hl, jobPhase, hs, Dispatcher.Phase.server?] at hw ⊢

/-- With one worker the tasks complete in the order in which they were queued, but for those
that `Cancel` took out of the queue: between two sections at most one task is scheduled or
running, all that were queued before it are terminal, and the rest is the queue. -/
theorem single_worker_in_order {w : WorkerID} {capacity : ResourceSet} {callback : Bool}
    {as : List Action} (h : Run.run step as (.initial [w] capacity callback) = some s)
    (hfree : s.holder = none) :
    ∃ current : Option TaskID, (∀ t, s.Dispatched t ↔ current = some t) ∧
      (Dispatcher.accepted (jobsOf as (.initial [w] capacity callback))).filter
          (fun t => t ∉ Dispatcher.withdrawn (jobsOf as (.initial [w] capacity callback))) =
        Dispatcher.finished (jobsOf as (.initial [w] capacity callback)) ++ current.toList ++
          s.queue := by
  obtain ⟨x, hx, hd⟩ := dispatches_run h
  obtain ⟨horder, hothers⟩ := Dispatcher.one_by_one hx (jobsOf_only w capacity callback as)
  have hline : x.line = s.queue := by
    have hline := hd.line
    rwa [hfree] at hline
  refine ⟨x.serving w, fun t => ?_, by rw [horder, hline]⟩
  rw [hd.dispatched_iff (inv_run h)]
  constructor
  · rintro ⟨w', hw'⟩
    by_cases heq : w' = w
    · rwa [heq] at hw'
    · rw [hothers w' heq] at hw'
      cases hw'
  · exact fun hw => ⟨w, hw⟩

set_option maxRecDepth 4000 in
theorem single_worker_in_order_one_of_two :
    Dispatcher.accepted (jobsOf Sample.oneOfTwo Sample.runtime) = [Sample.task 1, Sample.task 2] ∧
    Dispatcher.finished (jobsOf Sample.oneOfTwo Sample.runtime) = [Sample.task 1] ∧
    (Run.stateAfter step Sample.oneOfTwo Sample.runtime).queue = [Sample.task 2] ∧
    ∀ t, ¬ (Run.stateAfter step Sample.oneOfTwo Sample.runtime).Dispatched t := by
  have hrun : Run.run step Sample.oneOfTwo Sample.runtime =
      some (Run.stateAfter step Sample.oneOfTwo Sample.runtime) := Run.run_stateAfter (by decide)
  have haccepted : Dispatcher.accepted (jobsOf Sample.oneOfTwo Sample.runtime) =
      [Sample.task 1, Sample.task 2] := by decide
  have hwithdrawn : Dispatcher.withdrawn (jobsOf Sample.oneOfTwo Sample.runtime) = [] := by decide
  have hfinished : Dispatcher.finished (jobsOf Sample.oneOfTwo Sample.runtime) =
      [Sample.task 1] := by decide
  refine ⟨haccepted, hfinished, rfl, fun t ht => ?_⟩
  obtain ⟨current, hcurrent, horder⟩ := single_worker_in_order hrun rfl
  rw [hcurrent] at ht
  subst ht
  -- nothing is left for the worker between what is finished and the queue
  have hlength := congrArg List.length horder
  change _ = (Dispatcher.finished (jobsOf Sample.oneOfTwo Sample.runtime) ++ [t] ++
    [Sample.task 2]).length at hlength
  change ((Dispatcher.accepted (jobsOf Sample.oneOfTwo Sample.runtime)).filter
    (fun t => t ∉ Dispatcher.withdrawn (jobsOf Sample.oneOfTwo Sample.runtime))).length = _
    at hlength
  rw [haccepted, hwithdrawn, hfinished] at hlength
  simp at hlength

end LocalSystem

end AgentRuntime
