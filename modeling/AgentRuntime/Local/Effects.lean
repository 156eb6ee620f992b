import AgentRuntime.Local.Moves
import AgentRuntime.Local.Stage

/-!
# What each step does

Every step of every thread is described once, by the change it makes to the
components. The branches of the source that give up an operation half way are
left out here: they are not taken from a state that is `Unfailing`, and that
every reachable state is unfailing is shown later.
-/
namespace AgentRuntime

namespace LocalSystem

/-- What a run is observed to do. -/
inductive Event where
  /-- The handler of the task is called. -/
  | invoked (t : TaskID)
  /-- `Complete` is accepted for the task. -/
  | completed (t : TaskID)
  /-- Resources are acquired from the pool of a worker. -/
  | acquired (w : WorkerID) (reservation : RunningReservation)
  /-- Resources are given back to the pool of a worker. -/
  | released (w : WorkerID) (reservation : RunningReservation)
  deriving DecidableEq

def threadEvents (s : State) (w : WorkerID) : ThreadAction → List Event
  | .invoke =>
    match (s.worker w).thread with
    | .marked work => if work.handler.isSome then [.invoked work.spec.id] else []
    | _ => []
  | .complete =>
    match (s.worker w).thread with
    | .finished work outcome =>
      if (s.taskManager.complete work.spec.id outcome).1.ok then [.completed work.spec.id] else []
    | _ => []
  | .idleRelease =>
    match (s.worker w).thread with
    | .releasing reservation =>
      if (s.resourceManager.release w reservation.resources).1.ok then [.released w reservation]
      else []
    | _ => []
  | _ => []

def loopEvents (s : State) : LoopAction → List Event
  | .tryAcquire =>
    match s.holder with
    | some (.scheduling (.acquiring p)) =>
      if (s.resourceManager.acquire p.worker p.spec.resources).1.ok then
        [.acquired p.worker ⟨p.task, p.spec.resources⟩]
      else []
    | _ => []
  | .undoRelease =>
    match s.holder with
    | some (.scheduling (.undoRelease p)) =>
      if (s.resourceManager.release p.worker p.spec.resources).1.ok then
        [.released p.worker ⟨p.task, p.spec.resources⟩]
      else []
    | _ => []
  | _ => []

def events (s : State) : Action → List Event
  | .loop a => loopEvents s a
  | .thread w a => threadEvents s w a
  | .call _ | .lifecycle _ | .wake _ => []

/-- The operation that the owner of `Scheduler::mu_` is about to perform will not fail. -/
def Holder.Unfailing (s : State) : Holder → Prop
  | .scheduling phase =>
    match phase with
    | .fetchingSpec t => ∃ record, s.record t = some record
    | .reserving p => s.pool.started = true ∧ p.worker ∈ s.pool.workerIds ∧
        (s.worker p.worker).started = true ∧ (s.worker p.worker).stopping = false ∧
        (s.worker p.worker).state = .idle
    | .acquiring p => s.resourceManager.canFitAvailable p.worker p.spec.resources = true
    | .fetchingHandler p | .fetchingToken p _ => ∃ record, s.record p.task = some record
    | .popping p _ _ => ∃ rest, s.queue = p.task :: rest
    | .marking p _ _ => ∃ record, s.record p.task = some record ∧ record.state = .queued
    | .dispatching p _ => s.pool.started = true ∧ p.worker ∈ s.pool.workerIds ∧
        (s.worker p.worker).started = true ∧ (s.worker p.worker).stopping = false ∧
        (s.worker p.worker).state = .reserved ∧ (s.worker p.worker).mailbox = none
    | .undoRelease _ | .undoReserve _ => False
    | .observing _ _ _ _ | .selecting _ _ _ => True
  | .cancelRemove _ t => t ∈ s.queue
  | .cancelTask _ t true => ∃ record, s.record t = some record ∧ record.state = .queued
  | _ => True

/-- Nor will the transition that a worker thread is about to request. -/
def ThreadUnfailing (s : State) (w : WorkerID) : Prop :=
  match (s.worker w).thread with
  | .taken work => ∃ record, s.record work.spec.id = some record ∧ record.state = .scheduled
  | .marked work => work.handler.isSome = true
  | .finished work _ => ∃ record, s.record work.spec.id = some record ∧ record.state = .running
  | _ => True

structure Unfailing (s : State) : Prop where
  holder : ∀ holder, s.holder = some holder → holder.Unfailing s
  threads : ∀ w, ThreadUnfailing s w

variable {s u : State}

/-! ## Calls -/

/-- What a section of a call does to `lifecycle_mu_`. -/
inductive CallLifecycle (s : State) : Option LifecycleHolder → Prop where
  | same : CallLifecycle s s.lifecycle
  | returned : CallLifecycle s none
  | admitted {k spec handler} (hchecks : (submitChecks s spec handler).ok = true) :
      CallLifecycle s (some (.registering k spec handler))
  | registered {k spec handler} (hholder : s.lifecycle = some (.registering k spec handler)) :
      CallLifecycle s (some (.enqueuing k spec.id))
  | entered : CallLifecycle s (some .inEnqueue)

/-- The calls of clients leave the pool, the pools of resources and the threads alone. -/
structure CallFrame (s u : State) : Prop where
  pool : u.pool = s.pool
  resourceManager : u.resourceManager = s.resourceManager
  running : u.running = s.running
  started : u.started = s.started
  control : u.control = s.control
  loop : u.loop = s.loop
  lifecycle : CallLifecycle s u.lifecycle
  holder : ∀ phase, u.holder = some (.scheduling phase) → s.holder = some (.scheduling phase)

theorem callFrame_submitReturns (s : State) (k : Nat) (status : Status) :
    CallFrame s (s.submitReturns k status) :=
  ⟨rfl, rfl, rfl, rfl, rfl, rfl, .returned, fun _ h => h⟩

theorem callFrame {a : CallAction} (h : callStep s a = some u) : CallFrame s u := by
  cases callMove h with
  | refuseChecks | refuseRegister | refuseEnqueue => exact callFrame_submitReturns s _ _
  | passChecks _ hchecks =>
    exact ⟨rfl, rfl, rfl, rfl, rfl, rfl, .admitted hchecks, fun _ h => h⟩
  | register _ hlife => exact ⟨rfl, rfl, rfl, rfl, rfl, rfl, .registered hlife, fun _ h => h⟩
  | enterEnqueue => exact ⟨rfl, rfl, rfl, rfl, rfl, rfl, .entered, fun _ h => by cases h⟩
  | refuseMark | push => exact ⟨rfl, rfl, rfl, rfl, rfl, rfl, .returned, fun _ h => by cases h⟩
  | markQueued | beginRemove | beginCancel | remove | refuseRemove | cancel | refuseCancel
  | notify | cancelled =>
    exact ⟨rfl, rfl, rfl, rfl, rfl, rfl, .same, fun _ h => by cases h⟩
  | notFound | drainRefused | drained | drainSleeps =>
    exact ⟨rfl, rfl, rfl, rfl, rfl, rfl, .same, fun _ h => h⟩

/-- What a section of a call does to the task manager, the queue and `Scheduler::mu_`. -/
inductive CallEffect (submitting : TaskSpec → TaskHandler → Prop) (tm : TaskManager)
    (queue : TaskQueue) :
    Option Holder → TaskManager → TaskQueue → Option Holder → Prop where
  | same (holder) : CallEffect submitting tm queue holder tm queue holder
  | register {spec : TaskSpec} {handler : TaskHandler} (holder) (hsubmit : submitting spec handler)
      (hnew : tm.records.lookup spec.id = none) (hhandler : handler.isSome = true) :
      CallEffect submitting tm queue holder (tm.store spec.id (TaskManager.newRecord spec handler)) queue
        holder
  | beginEnqueue (k t) : CallEffect submitting tm queue none tm queue (some (.enqueueMark k t))
  | beginRemove {k t record} (hrecord : tm.records.lookup t = some record)
      (hqueued : record.state = .queued) :
      CallEffect submitting tm queue none tm queue (some (.cancelRemove k t))
  | beginCancel {k t record} (hrecord : tm.records.lookup t = some record)
      (hqueued : record.state ≠ .queued) :
      CallEffect submitting tm queue none tm queue (some (.cancelTask k t false))
  | markQueued {k t record} (hrecord : tm.records.lookup t = some record)
      (hpending : record.state = .pending) :
      CallEffect submitting tm queue (some (.enqueueMark k t)) (tm.store t { record with state := .queued })
        queue (some (.enqueuePush k t))
  | push (k t) : CallEffect submitting tm queue (some (.enqueuePush k t)) tm (queue ++ [t]) none
  | remove {k t} (hmem : t ∈ queue) :
      CallEffect submitting tm queue (some (.cancelRemove k t)) tm (queue.erase t)
        (some (.cancelTask k t true))
  | cancelQueued {k t queued record completion}
      (hrecord : tm.records.lookup t = some record) (hqueued : record.state = .queued)
      (hcompletion : ∀ done, completion = some done → done.taskId = record.spec.id) :
      CallEffect submitting tm queue (some (.cancelTask k t queued))
        (tm.store t (TaskManager.cancelledRecord record)) queue
        (some (.cancelReport k queued completion))
  | cancelRunning {k t queued record} (hrecord : tm.records.lookup t = some record)
      (hrunning : record.state = .running) :
      CallEffect submitting tm queue (some (.cancelTask k t queued))
        (tm.store t { record with cancelRequested := true }) queue
        (some (.cancelReport k queued none))
  | refuseEnqueue (k t) : CallEffect submitting tm queue (some (.enqueueMark k t)) tm queue none
  | refuseCancel (k t) : CallEffect submitting tm queue (some (.cancelTask k t false)) tm queue none
  | return (k queued completion) :
      CallEffect submitting tm queue (some (.cancelReport k queued completion)) tm queue none

theorem callEffect {a : CallAction} (h : callStep s a = some u) (hu : Unfailing s) :
    CallEffect (fun spec handler => ∃ k, s.lifecycle = some (.registering k spec handler))
      s.taskManager s.queue s.holder u.taskManager u.queue u.holder := by
  cases a with
  | submitBegin k spec handler =>
    simp only [callStep] at h
    split at h
    · cases h
      simp only [submitBegin]
      split <;> exact .same _
    · cases h
  | submitRegister =>
    simp only [callStep] at h
    split at h
    · rename_i k spec handler hholder
      cases h
      simp only [submitRegister]
      obtain ⟨status, hno, he⟩ | ⟨hnew, hhandler, he⟩ :=
        s.taskManager.register_cases spec handler
      · simp only [he, hno]
        exact .same _
      · simp only [he]
        exact .register _ ⟨k, hholder⟩ hnew hhandler
    · cases h
  | enqueueBegin =>
    simp only [callStep] at h
    split at h
    · rename_i hfree
      cases h
      simp only [enqueueBegin]
      split
      · exact .same _
      · rw [hfree]
        exact .beginEnqueue _ _
    · cases h
  | enqueueMark =>
    simp only [callStep] at h
    split at h
    · rename_i k t hholder
      cases h
      simp only [enqueueMark, TaskManager.markQueued]
      obtain ⟨status, hno, he, -⟩ | ⟨record, hl, hlegal, he⟩ :=
        s.taskManager.mark_cases t "task is not registered" .queued (fun record => record)
      · rw [hholder]
        simp only [he, hno]
        exact .refuseEnqueue k t
      · rw [hholder]
        simp only [he]
        exact .markQueued hl ((TaskManager.legal_queued _).mp hlegal)
    · cases h
  | enqueuePush woken =>
    simp only [callStep] at h
    split at h
    · rename_i k t hholder
      obtain ⟨sleeping, -, rfl⟩ := Option.map_eq_some_iff.mp h
      rw [hholder]
      exact .push k t
    · cases h
  | cancelBegin k t =>
    simp only [callStep] at h
    split at h
    · rename_i hfree _
      cases h
      simp only [cancelBegin]
      split
      · exact .same _
      · rename_i snapshot hsnap
        obtain ⟨record, hl, rfl⟩ := TaskManager.get_ok hsnap
        rw [hfree]
        split
        · rename_i hqueued
          exact .beginRemove hl hqueued
        · rename_i hqueued
          exact .beginCancel hl hqueued
    · cases h
  | cancelRemove =>
    simp only [callStep] at h
    split at h
    · rename_i k t hholder
      have hmem : t ∈ s.queue := hu.holder _ hholder
      cases h
      rw [hholder]
      simp only [cancelRemove, TaskQueue.remove, hmem, if_true]
      exact .remove hmem
    · cases h
  | cancelTask =>
    simp only [callStep] at h
    split at h
    · rename_i k t queued hholder
      have hun := hu.holder _ hholder
      cases h
      rw [hholder]
      simp only [cancelTask]
      obtain ⟨status, hno, he, hnot⟩ | ⟨record, hl, hqueued, he⟩ | ⟨record, hl, hrunning, he⟩ :=
        s.taskManager.cancel_cases t
      · cases queued with
        | true =>
          obtain ⟨record, hl, hqueued⟩ := hun
          exact absurd hqueued (hnot record hl).1
        | false =>
          simp only [he, hno]
          exact .refuseCancel k t
      · simp only [he]
        refine .cancelQueued hl hqueued (fun done hdone => ?_)
        have hid := TaskManager.notification_taskId hdone
        exact hid
      · simp only [he]
        exact .cancelRunning hl hrunning
    · cases h
  | cancelReturn woken =>
    simp only [callStep] at h
    split at h
    · rename_i hholder
      obtain ⟨sleeping, -, rfl⟩ := Option.map_eq_some_iff.mp h
      rw [hholder]
      exact .return _ _ _
    · rename_i hholder
      cases h
      rw [hholder]
      exact .return _ _ _
    · cases h
  | drainBegin k =>
    simp only [callStep] at h
    split at h
    · cases h
      simp only [drainBegin, drainWait]
      split
      · split <;> exact .same _
      · exact .same _
    · cases h
  | drainWait k =>
    simp only [callStep] at h
    split at h
    · split at h
      · cases h
      · cases h
        simp only [drainWait]
        split <;> exact .same _
    · cases h

/-! ## The scheduler thread -/

/-- What a section of the scheduler thread does. -/
inductive LoopEffect (s : State) : List Event → State → Prop where
  /-- In `Run`, or a `TryScheduleOne` that finds nothing to do at once. -/
  | rest (loop wake sleeping) (hfree : s.holder = none) (hloop : s.loop.alive = true) :
      LoopEffect s [] { s with loop := loop, wakeRequested := wake, sleeping := sleeping }
  | peek {t rest} (hfree : s.holder = none) (hloop : s.loop = .entering)
      (hqueue : s.queue = t :: rest) : LoopEffect s [] (s.setTry (.fetchingSpec t))
  | spec {t record} (hholder : s.holder = some (.scheduling (.fetchingSpec t)))
      (hrecord : s.record t = some record) :
      LoopEffect s [] (s.setTry (.observing t record.spec s.pool.workerIds []))
  | observe {t spec w rest idle} (idle')
      (hholder : s.holder = some (.scheduling (.observing t spec (w :: rest) idle)))
      (hidle : idle' = idle ∨
        idle' = idle ++ [w] ∧ w ∈ s.pool.workerIds ∧ (s.worker w).state = .idle) :
      LoopEffect s [] (s.setTry (.observing t spec rest idle'))
  | choose {t spec idle} (hholder : s.holder = some (.scheduling (.observing t spec [] idle))) :
      LoopEffect s [] (s.setTry (.selecting t spec idle))
  | skip {t spec w rest}
      (hholder : s.holder = some (.scheduling (.selecting t spec (w :: rest)))) :
      LoopEffect s [] (s.setTry (.selecting t spec rest))
  | select {t spec w rest}
      (hholder : s.holder = some (.scheduling (.selecting t spec (w :: rest))))
      (hfits : s.resourceManager.canFitAvailable w spec.resources = true) :
      LoopEffect s [] (s.setTry (.reserving ⟨t, spec, w⟩))
  /-- No idle worker, or none with room: the task stays at the head of the queue. -/
  | giveUp {phase} (hholder : s.holder = some (.scheduling phase))
      (hphase : (∃ t spec idle, phase = .observing t spec [] idle) ∨
        ∃ t spec, phase = .selecting t spec []) : LoopEffect s [] (s.tryReturns false)
  | reserve {p} (hholder : s.holder = some (.scheduling (.reserving p)))
      (hstarted : (s.worker p.worker).started = true)
      (hidle : (s.worker p.worker).state = .idle) :
      LoopEffect s [] ((s.setWorker p.worker
        { s.worker p.worker with state := .reserved }).setTry (.acquiring p))
  | acquire {p} (hholder : s.holder = some (.scheduling (.acquiring p)))
      (hfits : s.resourceManager.canFitAvailable p.worker p.spec.resources = true) :
      LoopEffect s [.acquired p.worker ⟨p.task, p.spec.resources⟩]
        ({ s with
          resourceManager :=
            (s.resourceManager.acquire p.worker p.spec.resources).2 }.setTry (.fetchingHandler p))
  | handler {p record} (hholder : s.holder = some (.scheduling (.fetchingHandler p)))
      (hrecord : s.record p.task = some record) :
      LoopEffect s [] (s.setTry (.fetchingToken p record.handler))
  | token {p handler} (hholder : s.holder = some (.scheduling (.fetchingToken p handler))) :
      LoopEffect s [] (s.setTry (.popping p handler p.task))
  | pop {p handler token rest}
      (hholder : s.holder = some (.scheduling (.popping p handler token)))
      (hqueue : s.queue = p.task :: rest) :
      LoopEffect s [] ({ s with queue := rest }.setTry (.marking p handler token))
  | mark {p handler token record} (executionId)
      (hholder : s.holder = some (.scheduling (.marking p handler token)))
      (hrecord : s.record p.task = some record) (hqueued : record.state = .queued) :
      LoopEffect s [] ({ s with
        taskManager := s.taskManager.store p.task { record with
          state := .scheduled, attempt := record.attempt + 1, worker := some p.worker,
          executionId := executionId }
        running := s.running.emplace p.worker ⟨p.task, p.spec.resources⟩ }.setTry
          (.dispatching p ⟨p.spec, executionId, handler, token⟩))
  | dispatch {p work} (hholder : s.holder = some (.scheduling (.dispatching p work)))
      (hstarted : (s.worker p.worker).started = true)
      (hstopping : (s.worker p.worker).stopping = false)
      (hreserved : (s.worker p.worker).state = .reserved)
      (hmailbox : (s.worker p.worker).mailbox = none) :
      LoopEffect s [] ((s.setWorker p.worker
        { s.worker p.worker with mailbox := some work, state := .busy }).tryReturns true)

theorem loopEffect {a : LoopAction} (h : loopStep s a = some u) (hu : Unfailing s) :
    LoopEffect s (loopEvents s a) u := by
  cases a with
  | wait =>
    simp only [loopStep] at h
    split at h
    · rename_i hloop hfree
      split at h
      · cases h
      · cases h
        simp only [loopWait]
        split
        · exact .rest _ _ _ hfree (by rw [hloop]; rfl)
        · split <;> exact .rest _ _ _ hfree (by rw [hloop]; rfl)
    · cases h
  | check =>
    simp only [loopStep] at h
    split at h
    · rename_i hloop hfree
      cases h
      exact .rest _ _ _ hfree (by rw [hloop]; rfl)
    · cases h
  | tryBegin =>
    simp only [loopStep] at h
    split at h
    · rename_i hloop hfree
      cases h
      have hrest : LoopEffect s [] (s.tryReturns false) := by
        have : s.tryReturns false =
            { s with
              loop := .atWait, wakeRequested := s.wakeRequested, sleeping := s.sleeping } := by
          simp [State.tryReturns, hfree]
        rw [this]
        exact .rest _ _ _ hfree (by rw [hloop]; rfl)
      simp only [tryBegin]
      split
      · exact hrest
      · cases hq : s.queue with
        | nil => exact hrest
        | cons t rest => exact .peek hfree hloop hq
    · cases h
  | trySpec =>
    simp only [loopStep] at h
    split at h
    · rename_i t hholder
      obtain ⟨record, hrecord⟩ := hu.holder _ hholder
      cases h
      have hget : s.taskManager.getSpec t = .ok record.spec := TaskManager.get_of_some hrecord
      simp only [trySpec, hget]
      exact .spec hholder hrecord
    · cases h
  | tryObserve =>
    simp only [loopStep] at h
    split at h
    · rename_i t spec rest idle hholder
      cases h
      cases rest with
      | nil =>
        simp only [tryObserve]
        split
        · exact .giveUp hholder (.inl ⟨t, spec, idle, rfl⟩)
        · exact .choose hholder
      | cons w rest =>
        simp only [tryObserve, WorkerPool.findWorkerLocked]
        by_cases hw : w ∈ s.pool.workerIds
        · simp only [hw, if_true]
          by_cases hi : (s.pool.workers w).isIdle = true
          · simp only [hi, if_true]
            exact .observe _ hholder (.inr ⟨rfl, hw, by simpa [Worker.isIdle, State.worker] using hi⟩)
          · simp only [hi]
            exact .observe _ hholder (.inl rfl)
        · simp only [hw, if_false]
          exact .observe _ hholder (.inl rfl)
    · cases h
  | trySelect =>
    simp only [loopStep] at h
    split at h
    · rename_i t spec rest hholder
      cases h
      cases rest with
      | nil => exact .giveUp hholder (.inr ⟨t, spec, rfl⟩)
      | cons w rest =>
        simp only [trySelect]
        split
        · rename_i hfits
          exact .select hholder hfits
        · exact .skip hholder
    · cases h
  | tryReserve =>
    simp only [loopStep] at h
    split at h
    · rename_i p hholder
      have hun := hu.holder _ hholder
      cases h
      obtain ⟨-, -, hnot⟩ | ⟨hstarted, hidle, he⟩ := s.pool.tryReserve_cases p.worker
      · exact absurd hun hnot
      · simp only [tryReserve, he]
        exact .reserve hholder hstarted hidle
    · cases h
  | tryAcquire =>
    simp only [loopStep] at h
    split at h
    · rename_i p hholder
      have hfits := hu.holder _ hholder
      cases h
      have hok := (ResourceManager.acquire_fits hfits).1
      simp only [tryAcquire, loopEvents, hholder, hok, Status.ok_OK, if_true]
      exact .acquire hholder hfits
    · cases h
  | tryHandler =>
    simp only [loopStep] at h
    split at h
    · rename_i p hholder
      obtain ⟨record, hrecord⟩ := hu.holder _ hholder
      cases h
      have hget : s.taskManager.getHandler p.task = .ok record.handler :=
        TaskManager.get_of_some hrecord
      simp only [tryHandler, hget]
      exact .handler hholder hrecord
    · cases h
  | tryToken =>
    simp only [loopStep] at h
    split at h
    · rename_i p handler hholder
      obtain ⟨record, hrecord⟩ := hu.holder _ hholder
      cases h
      have hget : s.taskManager.getCancellationToken p.task = .ok p.task :=
        TaskManager.get_of_some hrecord
      simp only [tryToken, hget]
      exact .token hholder
    · cases h
  | tryPop =>
    simp only [loopStep] at h
    split at h
    · rename_i p handler token hholder
      obtain ⟨rest, hqueue⟩ := hu.holder _ hholder
      cases h
      simp only [tryPop, hqueue, TaskQueue.pop, ne_eq, not_true, if_false]
      exact .pop hholder hqueue
    · cases h
  | tryMark executionId =>
    simp only [loopStep] at h
    split at h
    · rename_i p handler token hholder
      obtain ⟨record, hrecord, hqueued⟩ := hu.holder _ hholder
      cases h
      simp only [tryMark, TaskManager.markScheduled]
      obtain ⟨status, -, -, hnot⟩ | ⟨record', hl, -, he⟩ :=
        s.taskManager.mark_cases p.task "Task is not registered" .scheduled
          (fun record => { record with
            attempt := record.attempt + 1, worker := some p.worker, executionId := executionId })
      · have := hnot record hrecord
        simp [hqueued, TaskManager.legal] at this
      · simp only [he]
        exact .mark executionId hholder hl (by
          rw [State.record, hl] at hrecord
          cases hrecord
          exact hqueued)
    · cases h
  | tryDispatch =>
    simp only [loopStep] at h
    split at h
    · rename_i p work hholder
      have hun := hu.holder _ hholder
      cases h
      obtain ⟨-, -, hnot⟩ | ⟨hstarted, hstopping, hreserved, hmailbox, he⟩ :=
        s.pool.dispatchReserved_cases p.worker work
      · exact absurd hun hnot
      · simp only [tryDispatch, he]
        exact .dispatch hholder hstarted hstopping hreserved hmailbox
    · cases h
  | undoRelease =>
    simp only [loopStep] at h
    split at h
    · rename_i p hholder
      exact (hu.holder _ hholder).elim
    · cases h
  | undoReserve =>
    simp only [loopStep] at h
    split at h
    · rename_i w hholder
      exact (hu.holder _ hholder).elim
    · cases h

/-! ## The worker threads -/

/-- What a section of the thread of a worker does. -/
inductive ThreadEffect (s : State) (w : WorkerID) : List Event → State → Prop where
  | take {work} (hthread : (s.worker w).thread = .waiting)
      (hmailbox : (s.worker w).mailbox = some work) :
      ThreadEffect s w []
        (s.setWorker w { s.worker w with thread := .taken work, mailbox := none })
  | leave (hthread : (s.worker w).thread = .waiting) (hmailbox : (s.worker w).mailbox = none)
      (hstopping : (s.worker w).stopping = true) :
      ThreadEffect s w [] (s.setWorker w { s.worker w with thread := .exited })
  | markRunning {work record} (hthread : (s.worker w).thread = .taken work)
      (hrecord : s.record work.spec.id = some record) (hscheduled : record.state = .scheduled) :
      ThreadEffect s w [] ({ s with
        taskManager := s.taskManager.store work.spec.id
          { record with state := .running } }.setThread w (.marked work))
  | invoke {work} (hthread : (s.worker w).thread = .marked work) :
      ThreadEffect s w [.invoked work.spec.id] (s.setThread w (.executing work))
  | leaveHandler {work} (outcome) (hthread : (s.worker w).thread = .executing work) :
      ThreadEffect s w [] (s.setThread w (.finished work outcome))
  | complete {work outcome record} (thread)
      (hthread : (s.worker w).thread = .finished work outcome)
      (hrecord : s.record work.spec.id = some record) (hrunning : record.state = .running)
      (hnext : thread = .returning ∨
        ∃ completion, completion.taskId = record.spec.id ∧ thread = .reporting completion) :
      ThreadEffect s w [.completed work.spec.id] ({ s with
        taskManager := s.taskManager.store work.spec.id { record with
          state := TaskManager.terminalState outcome.status, terminalStatus := outcome.status,
          result := outcome.result } }.setThread w thread)
  | reported {completion} (hthread : (s.worker w).thread = .reporting completion) :
      ThreadEffect s w [] (s.setThread w .returning)
  | becomeIdle (hthread : (s.worker w).thread = .returning) :
      ThreadEffect s w [] (s.setWorker w (s.worker w).becomeIdle)
  | erase {reservation} (hthread : (s.worker w).thread = .notifying) (hfree : s.holder = none)
      (hentry : s.running.lookup w = some reservation) :
      ThreadEffect s w []
        ({ s with running := s.running.erase w }.setThread w (.releasing reservation))
  | eraseNone (hthread : (s.worker w).thread = .notifying) (hfree : s.holder = none)
      (hentry : s.running.lookup w = none) : ThreadEffect s w [] (s.setThread w .waking)
  | release {reservation} (hthread : (s.worker w).thread = .releasing reservation) :
      ThreadEffect s w
        (if (s.resourceManager.release w reservation.resources).1.ok then [.released w reservation]
          else [])
        ({ s with
          resourceManager := (s.resourceManager.release w reservation.resources).2 }.setThread w
            .waking)
  | wake (wake) (hthread : (s.worker w).thread = .waking) :
      ThreadEffect s w [] ({ s with wakeRequested := wake }.setThread w .announcing)
  | announce (hthread : (s.worker w).thread = .announcing) :
      ThreadEffect s w [] ({ s with sleeping := [] }.setThread w .waiting)

theorem threadEffect {w : WorkerID} {a : ThreadAction} (h : threadStep s w a = some u)
    (hu : Unfailing s) : ThreadEffect s w (threadEvents s w a) u := by
  have hun := hu.threads w
  cases a with
  | take =>
    obtain ⟨worker, htake, rfl⟩ := Option.map_eq_some_iff.mp h
    obtain ⟨hthread, ⟨work, hmailbox, rfl⟩ | ⟨hmailbox, hstopping, rfl⟩⟩ := Worker.take_cases htake
    · exact .take hthread hmailbox
    · exact .leave hthread hmailbox hstopping
  | markRunning =>
    simp only [threadStep] at h
    split at h
    · rename_i work hthread
      cases h
      simp only [ThreadUnfailing, hthread] at hun
      obtain ⟨record, hrecord, hscheduled⟩ := hun
      simp only [markRunning, TaskManager.markRunning]
      obtain ⟨status, -, -, hnot⟩ | ⟨record', hl, -, he⟩ :=
        s.taskManager.mark_cases work.spec.id "task is not registered" .running
          (fun record => record)
      · have := hnot record hrecord
        simp [hscheduled, TaskManager.legal] at this
      · simp only [he]
        rw [State.record, hl] at hrecord
        cases hrecord
        exact .markRunning hthread hl hscheduled
    · cases h
  | invoke =>
    simp only [threadStep] at h
    split at h
    · rename_i work hthread
      cases h
      simp only [ThreadUnfailing, hthread] at hun
      simp only [invoke, threadEvents, hthread, hun, if_true]
      exact .invoke hthread
    · cases h
  | leaveHandler exit =>
    simp only [threadStep] at h
    split at h
    · rename_i work hthread
      cases h
      exact .leaveHandler _ hthread
    · cases h
  | complete =>
    simp only [threadStep] at h
    split at h
    · rename_i work outcome hthread
      cases h
      simp only [ThreadUnfailing, hthread] at hun
      obtain ⟨record, hrecord, hrunning⟩ := hun
      obtain ⟨status, -, -, hnot⟩ | ⟨record', hl, -, done, rfl, he⟩ :=
        s.taskManager.complete_cases work.spec.id outcome
      · have := hnot record hrecord
        rw [hrunning, TaskManager.legal_terminalState] at this
        cases this
      · rw [State.record, hl] at hrecord
        cases hrecord
        simp only [complete, threadEvents, hthread, he, Status.ok_OK, if_true]
        refine .complete _ hthread hl hrunning ?_
        split
        · rename_i done hdone
          have hid := TaskManager.notification_taskId hdone
          exact .inr ⟨done, hid, rfl⟩
        · exact .inl rfl
    · cases h
  | reported =>
    simp only [threadStep] at h
    split at h
    · rename_i completion hthread
      cases h
      exact .reported hthread
    · cases h
  | becomeIdle =>
    simp only [threadStep] at h
    split at h
    · rename_i hthread
      cases h
      exact .becomeIdle hthread
    · cases h
  | idleErase =>
    simp only [threadStep] at h
    split at h
    · rename_i hthread hfree
      cases h
      simp only [idleErase]
      split
      · rename_i reservation hentry
        exact .erase hthread hfree hentry
      · rename_i hentry
        exact .eraseNone hthread hfree hentry
    · cases h
  | idleRelease =>
    simp only [threadStep] at h
    split at h
    · rename_i reservation hthread
      cases h
      simp only [threadEvents, hthread]
      exact .release hthread
    · cases h
  | idleWake =>
    simp only [threadStep] at h
    split at h
    · rename_i hthread _
      cases h
      exact .wake _ hthread
    · cases h
  | idleNotify =>
    simp only [threadStep] at h
    split at h
    · rename_i hthread
      cases h
      exact .announce hthread
    · cases h

/-! ## Start and Shutdown -/

/-- What a section of `Start` or `Shutdown` does to the pools and the workers. -/
inductive PoolsEffect (s : State) : ResourceManager → WorkerPool → Prop where
  | same : PoolsEffect s s.resourceManager s.pool
  | register : PoolsEffect s
      (registerAll s.resourcesPerWorker s.pool.workerIds s.resourceManager).2 s.pool
  | startPool : PoolsEffect s s.resourceManager s.pool.start.2
  | closePool : PoolsEffect s s.resourceManager s.pool.close
  | requestStop (w) :
      PoolsEffect s s.resourceManager (s.pool.set w (s.worker w).requestStop)
  | reset {w} (hexited : (s.worker w).thread = .exited) (hloop : s.loop.alive = false) :
      PoolsEffect s s.resourceManager (s.pool.set w (s.worker w).reset)

/-- `Start` and `Shutdown` leave the tasks and the calls alone. -/
structure LifecycleEffect (s u : State) : Prop where
  taskManager : u.taskManager = s.taskManager
  queue : u.queue = s.queue
  holder : u.holder = s.holder
  running : u.running = s.running
  submits : u.submits = s.submits
  lifecycle : u.lifecycle = s.lifecycle ∨
    LifecycleHolder.inSubmit s.lifecycle = false ∧ LifecycleHolder.inSubmit u.lifecycle = false
  pools : PoolsEffect s u.resourceManager u.pool

theorem startBegin_pools (h : lifecycleStep s .startBegin = some u) :
    PoolsEffect s u.resourceManager u.pool := by
  simp only [lifecycleStep] at h
  split at h
  · cases h
    simp only [startBegin]
    split
    · exact .same
    · split
      · exact .same
      · split <;> exact .register
  · cases h

theorem lifecycleEffect {a : LifecycleAction} (h : lifecycleStep s a = some u) (hs : Stage s) :
    LifecycleEffect s u := by
  cases lifecycleMove h with
  | startBegin rm initialized hlife _ _ hnext =>
    refine ⟨rfl, rfl, rfl, rfl, rfl, .inr ⟨by rw [hlife]; rfl, ?_⟩, startBegin_pools h⟩
    obtain rfl | rfl := hnext <;> rfl
  | startPool hlife hnext =>
    refine ⟨rfl, rfl, rfl, rfl, rfl, .inr ⟨by rw [hlife]; rfl, ?_⟩, .startPool⟩
    obtain rfl | rfl := hnext <;> rfl
  | startScheduler hlife | keepScheduler hlife | «open» hlife =>
    exact ⟨rfl, rfl, rfl, rfl, rfl, .inr ⟨by rw [hlife]; rfl, rfl⟩, .same⟩
  | closePool => exact ⟨rfl, rfl, rfl, rfl, rfl, .inl rfl, .closePool⟩
  | @stopWorker w => exact ⟨rfl, rfl, rfl, rfl, rfl, .inl rfl, .requestStop w⟩
  | resetWorker hcontrol =>
    exact ⟨rfl, rfl, rfl, rfl, rfl, .inl rfl,
      .reset (hs.joined _ _ hcontrol) (hs.past_join (by rw [hcontrol]; rfl))⟩
  | ignored | shutdownBegin | drainRefused | drained | drainSleeps | stop | notStarted | notify
  | join | stopped | poolDown | skipWorker | allStopped | joinWorker | publish =>
    exact ⟨rfl, rfl, rfl, rfl, rfl, .inl rfl, .same⟩

end LocalSystem

end AgentRuntime
