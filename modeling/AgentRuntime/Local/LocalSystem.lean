import AgentRuntime.Library.Run
import AgentRuntime.Worker.Worker

/-!
# The local runtime as a system of threads

Any number of `Runtime::Submit`, `Runtime::Cancel` and `Scheduler::Drain`
calls, one `Start` or `Shutdown` at a time, the scheduler thread and the thread
of each worker interleave, one section under a component's mutex per step.

The two mutexes that are held across steps, `Runtime::lifecycle_mu_` and
`Scheduler::mu_`, are slots that hold what their owner has reached. So there is
at most one owner, and a thread that needs a mutex which is taken has no step.
A step that only reads what nobody else can write at that time is merged with
the one before it.
-/
namespace AgentRuntime

namespace LocalSystem

/-- A thread asleep on `Scheduler::cv_`. -/
inductive Waiter where
  | loop
  | drain (k : Nat)
  | shutdown
  deriving DecidableEq

/-- The owner of `Runtime::lifecycle_mu_`. -/
inductive LifecycleHolder where
  /-- `Submit`, past the admission checks. -/
  | registering (k : Nat) (spec : TaskSpec) (handler : TaskHandler)
  | enqueuing (k : Nat) (t : TaskID)
  /-- `Submit`, inside `Scheduler::Enqueue` with `mu_` taken. -/
  | inEnqueue
  | startingPool
  | startingScheduler
  | opening

/-- The locals of `TryScheduleOne` once a worker has been selected. -/
structure Placement where
  task : TaskID
  spec : TaskSpec
  worker : WorkerID

/-- How far `TryScheduleOne` is. -/
inductive TryPhase where
  | fetchingSpec (t : TaskID)
  /-- In the loop of `IdleWorkers`. -/
  | observing (t : TaskID) (spec : TaskSpec) (rest idle : List WorkerID)
  /-- In the loop of `SelectWorker`. -/
  | selecting (t : TaskID) (spec : TaskSpec) (rest : List WorkerID)
  | reserving (p : Placement)
  | acquiring (p : Placement)
  | fetchingHandler (p : Placement)
  | fetchingToken (p : Placement) (handler : TaskHandler)
  | popping (p : Placement) (handler : TaskHandler) (token : TaskID)
  | marking (p : Placement) (handler : TaskHandler) (token : TaskID)
  | dispatching (p : Placement) (work : WorkItem)
  /-- A later step failed: `ResourceManager::Release`, then `ReleaseReservation`. -/
  | undoRelease (p : Placement)
  | undoReserve (w : WorkerID)

/-- The owner of `Scheduler::mu_`. -/
inductive Holder where
  | scheduling (phase : TryPhase)
  | enqueueMark (k : Nat) (t : TaskID)
  | enqueuePush (k : Nat) (t : TaskID)
  | cancelRemove (k : Nat) (t : TaskID)
  /-- `TaskManager::Cancel` is next, of a task that the snapshot showed queued or not. -/
  | cancelTask (k : Nat) (t : TaskID) (queued : Bool)
  /-- The completion callback, if any, runs with `mu_` held. -/
  | cancelReport (k : Nat) (queued : Bool) (completion : Option TaskCompletion)

/-- Where the scheduler thread is. -/
inductive LoopPhase where
  | off
  /-- About to take `mu_` for the wait at the top, or asleep in it. -/
  | atWait
  | looping
  /-- About to enter `TryScheduleOne`, or inside it. -/
  | entering
  | exited
  deriving DecidableEq

/-- How far `Runtime::Shutdown` is. -/
inductive ControlPhase where
  | off
  | draining
  | waitingDrain
  | stoppingScheduler
  | notifying
  | joiningLoop
  | loopJoined
  | closingPool
  | stoppingWorkers (rest : List WorkerID)
  | joiningWorker (w : WorkerID) (rest : List WorkerID)
  | resettingWorker (w : WorkerID) (rest : List WorkerID)
  | publishing

structure State where
  lifecycle : Option LifecycleHolder
  runtimeStarted : Bool
  accepting : Bool
  resourcesInitialized : Bool
  resourcesPerWorker : ResourceSet
  taskManager : TaskManager
  resourceManager : ResourceManager
  pool : WorkerPool
  queue : TaskQueue
  /-- `Scheduler::mu_`. -/
  holder : Option Holder
  started : Bool
  stopping : Bool
  wakeRequested : Bool
  running : UnorderedMap WorkerID RunningReservation
  /-- The threads asleep on `cv_`. -/
  sleeping : List Waiter
  loop : LoopPhase
  control : ControlPhase
  /-- The statuses of the calls that have returned; `Drain` calls may still wait. -/
  submits : UnorderedMap Nat Status
  cancels : UnorderedMap Nat Status
  drains : UnorderedMap Nat (Option Status)

namespace State

def initial (workerIds : List WorkerID) (resourcesPerWorker : ResourceSet)
    (completionCallback : Bool) : State where
  lifecycle := none
  runtimeStarted := false
  accepting := false
  resourcesInitialized := false
  resourcesPerWorker := resourcesPerWorker
  taskManager := ⟨∅, completionCallback⟩
  resourceManager := ⟨∅⟩
  pool := .new workerIds
  queue := []
  holder := none
  started := false
  stopping := false
  wakeRequested := false
  running := ∅
  sleeping := []
  loop := .off
  control := .off
  submits := ∅
  cancels := ∅
  drains := ∅

def record (s : State) (t : TaskID) : Option TaskRecord := s.taskManager.records.lookup t
def worker (s : State) (w : WorkerID) : Worker := s.pool.workers w

def setWorker (s : State) (w : WorkerID) (worker : Worker) : State :=
  { s with pool := s.pool.set w worker }
def setThread (s : State) (w : WorkerID) (thread : Thread) : State :=
  s.setWorker w ((s.worker w).setThread thread)

/-- A `Submit` call returns and gives up `lifecycle_mu_`. -/
def submitReturns (s : State) (k : Nat) (status : Status) : State :=
  { s with lifecycle := none, submits := s.submits.insert k status }
def cancelReturns (s : State) (k : Nat) (status : Status) : State :=
  { s with holder := none, cancels := s.cancels.insert k status }

/-- `TryScheduleOne` returns; the inner loop of `Run` goes on after a dispatch only. -/
def tryReturns (s : State) (dispatched : Bool) : State :=
  { s with holder := none, loop := if dispatched then .looping else .atWait }

/-- The wait predicate of `Drain`. -/
def drained (s : State) : Bool := s.queue.isEmpty && decide (s.running = ∅)

@[simp] theorem worker_setWorker (s : State) (w w' : WorkerID) (wk : Worker) :
    (s.setWorker w wk).worker w' = if w' = w then wk else s.worker w' := rfl
@[simp] theorem worker_setThread (s : State) (w w' : WorkerID) (thread : Thread) :
    (s.setThread w thread).worker w' =
      if w' = w then (s.worker w).setThread thread else s.worker w' := rfl

end State

/-- `notify_one`: one sleeping thread is woken, if there is any. -/
def notifyOne (sleeping : List Waiter) : Option Waiter → Option (List Waiter)
  | none => if sleeping = [] then some [] else none
  | some waiter => if waiter ∈ sleeping then some (sleeping.erase waiter) else none

/-! ## Calls of clients -/

inductive CallAction where
  | submitBegin (k : Nat) (spec : TaskSpec) (handler : TaskHandler)
  | submitRegister
  | enqueueBegin
  | enqueueMark
  | enqueuePush (woken : Option Waiter)
  | cancelBegin (k : Nat) (t : TaskID)
  | cancelRemove
  | cancelTask
  | cancelReturn (woken : Option Waiter)
  | drainBegin (k : Nat)
  | drainWait (k : Nat)

/-- The checks of `Submit` before it registers the task. -/
def submitChecks (s : State) (spec : TaskSpec) (handler : TaskHandler) : Status :=
  if !s.runtimeStarted || !s.accepting then .Unavailable "runtime is not accepting tasks"
  else if !spec.validate.ok then spec.validate
  else if handler.isNone then .InvalidArgument "task handler must not be empty"
  else if s.pool.workerIds.any (fun w => s.resourceManager.canFitTotal w spec.resources) then .OK
  else .ResourceExhausted "task cannot fit on any worker's total resource capacity"

def submitBegin (s : State) (k : Nat) (spec : TaskSpec) (handler : TaskHandler) : State :=
  if (submitChecks s spec handler).ok then { s with lifecycle := some (.registering k spec handler) }
  else s.submitReturns k (submitChecks s spec handler)

def submitRegister (s : State) (k : Nat) (spec : TaskSpec) (handler : TaskHandler) : State :=
  let done := s.taskManager.register spec handler
  if done.1.ok then
    { s with taskManager := done.2, lifecycle := some (.enqueuing k spec.id) }
  else { s with taskManager := done.2 }.submitReturns k done.1

def enqueueBegin (s : State) (k : Nat) (t : TaskID) : State :=
  if !s.started || s.stopping then
    s.submitReturns k (.Unavailable "Scheduler is not accepting tasks")
  else { s with holder := some (.enqueueMark k t), lifecycle := some .inEnqueue }

def enqueueMark (s : State) (k : Nat) (t : TaskID) : State :=
  let done := s.taskManager.markQueued t
  if done.1.ok then { s with taskManager := done.2, holder := some (.enqueuePush k t) }
  else { s with taskManager := done.2, holder := none }.submitReturns k done.1

/-- `Push` never fails. -/
def enqueuePush (s : State) (k : Nat) (t : TaskID) (sleeping : List Waiter) : State :=
  { s with
    queue := (s.queue.push t).2, wakeRequested := true, sleeping := sleeping,
    holder := none }.submitReturns k .OK

def cancelBegin (s : State) (k : Nat) (t : TaskID) : State :=
  match s.taskManager.getSnapshot t with
  | .error status => { s with cancels := s.cancels.insert k status }
  | .ok snapshot =>
    if snapshot.state = .queued then { s with holder := some (.cancelRemove k t) }
    else { s with holder := some (.cancelTask k t false) }

def cancelRemove (s : State) (k : Nat) (t : TaskID) : State :=
  let done := s.queue.remove t
  if done.1.ok then { s with queue := done.2, holder := some (.cancelTask k t true) }
  else s.cancelReturns k done.1

def cancelTask (s : State) (k : Nat) (t : TaskID) (queued : Bool) : State :=
  let done := s.taskManager.cancel t
  if done.1.ok then
    { s with taskManager := done.2.2, holder := some (.cancelReport k queued done.2.1) }
  else { s with taskManager := done.2.2 }.cancelReturns k done.1

/-- The end of the wait loop of `Drain`, or back to sleep. -/
def drainWait (s : State) (k : Nat) : State :=
  if s.drained then { s with drains := s.drains.insert k (some .OK) }
  else { s with drains := s.drains.insert k none, sleeping := .drain k :: s.sleeping }

def drainBegin (s : State) (k : Nat) : State :=
  if s.started then drainWait s k
  else
    { s with
      drains := s.drains.insert k (some (.FailedPrecondition "scheduler is not started")) }

def callStep (s : State) : CallAction → Option State
  | .submitBegin k spec handler =>
    match s.lifecycle, s.submits.lookup k with
    | none, none => some (submitBegin s k spec handler)
    | _, _ => none
  | .submitRegister =>
    match s.lifecycle with
    | some (.registering k spec handler) => some (submitRegister s k spec handler)
    | _ => none
  | .enqueueBegin =>
    match s.lifecycle, s.holder with
    | some (.enqueuing k t), none => some (enqueueBegin s k t)
    | _, _ => none
  | .enqueueMark =>
    match s.holder with
    | some (.enqueueMark k t) => some (enqueueMark s k t)
    | _ => none
  | .enqueuePush woken =>
    match s.holder with
    | some (.enqueuePush k t) => (notifyOne s.sleeping woken).map (enqueuePush s k t)
    | _ => none
  | .cancelBegin k t =>
    match s.holder, s.cancels.lookup k with
    | none, none => some (cancelBegin s k t)
    | _, _ => none
  | .cancelRemove =>
    match s.holder with
    | some (.cancelRemove k t) => some (cancelRemove s k t)
    | _ => none
  | .cancelTask =>
    match s.holder with
    | some (.cancelTask k t queued) => some (cancelTask s k t queued)
    | _ => none
  | .cancelReturn woken =>
    match s.holder with
    | some (.cancelReport k true _) => (notifyOne s.sleeping woken).map (fun sleeping =>
        { s with wakeRequested := true, sleeping := sleeping }.cancelReturns k .OK)
    | some (.cancelReport k false _) => some (s.cancelReturns k .OK)
    | _ => none
  | .drainBegin k =>
    match s.holder, s.drains.lookup k with
    | none, none => some (drainBegin s k)
    | _, _ => none
  | .drainWait k =>
    match s.holder, s.drains.lookup k with
    | none, some none => if .drain k ∈ s.sleeping then none else some (drainWait s k)
    | _, _ => none

/-! ## The scheduler thread -/

inductive LoopAction where
  | wait
  | check
  | tryBegin
  | trySpec
  | tryObserve
  | trySelect
  | tryReserve
  | tryAcquire
  | tryHandler
  | tryToken
  | tryPop
  | tryMark (executionId : ExecutionID)
  | tryDispatch
  | undoRelease
  | undoReserve

def State.setTry (s : State) (phase : TryPhase) : State :=
  { s with holder := some (.scheduling phase) }

/-- The wait of `Run` with its predicate. -/
def loopWait (s : State) : State :=
  if s.stopping then { s with loop := .exited }
  else if s.wakeRequested then { s with wakeRequested := false, loop := .looping }
  else { s with sleeping := .loop :: s.sleeping }

def tryBegin (s : State) : State :=
  if s.stopping then s.tryReturns false
  else match s.queue.peek with
    | .error _ => s.tryReturns false
    | .ok t => s.setTry (.fetchingSpec t)

def trySpec (s : State) (t : TaskID) : State :=
  match s.taskManager.getSpec t with
  | .error _ => s.tryReturns false
  | .ok spec => s.setTry (.observing t spec s.pool.workerIds [])

def tryObserve (s : State) (t : TaskID) (spec : TaskSpec) (rest idle : List WorkerID) : State :=
  match rest with
  | [] => if idle.isEmpty then s.tryReturns false else s.setTry (.selecting t spec idle)
  | w :: rest =>
    match s.pool.findWorkerLocked w with
    | none => s.setTry (.observing t spec rest idle)
    | some worker =>
      s.setTry (.observing t spec rest (if worker.isIdle then idle ++ [w] else idle))

def trySelect (s : State) (t : TaskID) (spec : TaskSpec) (rest : List WorkerID) : State :=
  match rest with
  | [] => s.tryReturns false
  | w :: rest =>
    if s.resourceManager.canFitAvailable w spec.resources then s.setTry (.reserving ⟨t, spec, w⟩)
    else s.setTry (.selecting t spec rest)

def tryReserve (s : State) (p : Placement) : State :=
  let done := s.pool.tryReserve p.worker
  if done.1.ok then { s with pool := done.2 }.setTry (.acquiring p)
  else { s with pool := done.2 }.tryReturns false

def tryAcquire (s : State) (p : Placement) : State :=
  let done := s.resourceManager.acquire p.worker p.spec.resources
  if done.1.ok then { s with resourceManager := done.2 }.setTry (.fetchingHandler p)
  else { s with resourceManager := done.2 }.setTry (.undoReserve p.worker)

def tryHandler (s : State) (p : Placement) : State :=
  match s.taskManager.getHandler p.task with
  | .error _ => s.setTry (.undoRelease p)
  | .ok handler => s.setTry (.fetchingToken p handler)

def tryToken (s : State) (p : Placement) (handler : TaskHandler) : State :=
  match s.taskManager.getCancellationToken p.task with
  | .error _ => s.setTry (.undoRelease p)
  | .ok token => s.setTry (.popping p handler token)

def tryPop (s : State) (p : Placement) (handler : TaskHandler) (token : TaskID) : State :=
  let done := s.queue.pop
  match done.1 with
  | .error _ => { s with queue := done.2 }.setTry (.undoRelease p)
  | .ok popped =>
    if popped ≠ p.task then { s with queue := done.2 }.setTry (.undoRelease p)
    else { s with queue := done.2 }.setTry (.marking p handler token)

def tryMark (s : State) (p : Placement) (handler : TaskHandler) (token : TaskID)
    (executionId : ExecutionID) : State :=
  let done := s.taskManager.markScheduled p.task p.worker executionId
  if done.1.ok then
    { s with
      taskManager := done.2
      running := s.running.emplace p.worker ⟨p.task, p.spec.resources⟩ }.setTry
        (.dispatching p ⟨p.spec, executionId, handler, token⟩)
  else { s with taskManager := done.2 }.setTry (.undoRelease p)

def tryDispatch (s : State) (p : Placement) (work : WorkItem) : State :=
  let done := s.pool.dispatchReserved p.worker work
  if done.1.ok then { s with pool := done.2 }.tryReturns true
  else { s with pool := done.2, running := s.running.erase p.worker }.setTry (.undoRelease p)

def undoRelease (s : State) (p : Placement) : State :=
  let done := s.resourceManager.release p.worker p.spec.resources
  { s with resourceManager := done.2 }.setTry (.undoReserve p.worker)

def undoReserve (s : State) (w : WorkerID) : State :=
  { s with pool := (s.pool.releaseReservation w).2 }.tryReturns false

def loopStep (s : State) : LoopAction → Option State
  | .wait =>
    match s.loop, s.holder with
    | .atWait, none => if .loop ∈ s.sleeping then none else some (loopWait s)
    | _, _ => none
  | .check =>
    match s.loop, s.holder with
    | .looping, none => some { s with loop := if s.stopping then .exited else .entering }
    | _, _ => none
  | .tryBegin =>
    match s.loop, s.holder with
    | .entering, none => some (tryBegin s)
    | _, _ => none
  | .trySpec =>
    match s.holder with
    | some (.scheduling (.fetchingSpec t)) => some (trySpec s t)
    | _ => none
  | .tryObserve =>
    match s.holder with
    | some (.scheduling (.observing t spec rest idle)) => some (tryObserve s t spec rest idle)
    | _ => none
  | .trySelect =>
    match s.holder with
    | some (.scheduling (.selecting t spec rest)) => some (trySelect s t spec rest)
    | _ => none
  | .tryReserve =>
    match s.holder with
    | some (.scheduling (.reserving p)) => some (tryReserve s p)
    | _ => none
  | .tryAcquire =>
    match s.holder with
    | some (.scheduling (.acquiring p)) => some (tryAcquire s p)
    | _ => none
  | .tryHandler =>
    match s.holder with
    | some (.scheduling (.fetchingHandler p)) => some (tryHandler s p)
    | _ => none
  | .tryToken =>
    match s.holder with
    | some (.scheduling (.fetchingToken p handler)) => some (tryToken s p handler)
    | _ => none
  | .tryPop =>
    match s.holder with
    | some (.scheduling (.popping p handler token)) => some (tryPop s p handler token)
    | _ => none
  | .tryMark executionId =>
    match s.holder with
    | some (.scheduling (.marking p handler token)) =>
      some (tryMark s p handler token executionId)
    | _ => none
  | .tryDispatch =>
    match s.holder with
    | some (.scheduling (.dispatching p work)) => some (tryDispatch s p work)
    | _ => none
  | .undoRelease =>
    match s.holder with
    | some (.scheduling (.undoRelease p)) => some (undoRelease s p)
    | _ => none
  | .undoReserve =>
    match s.holder with
    | some (.scheduling (.undoReserve w)) => some (undoReserve s w)
    | _ => none

/-! ## The worker threads -/

inductive ThreadAction where
  | take
  | markRunning
  | invoke
  | leaveHandler (exit : HandlerExit)
  | complete
  | reported
  | becomeIdle
  | idleErase
  | idleRelease
  | idleWake
  | idleNotify

def markRunning (s : State) (w : WorkerID) (work : WorkItem) : State :=
  let done := s.taskManager.markRunning work.spec.id
  { s with taskManager := done.2 }.setThread w (if done.1.ok then .marked work else .returning)

/-- The executor calls the handler, unless it is empty. -/
def invoke (s : State) (w : WorkerID) (work : WorkItem) : State :=
  s.setThread w (if work.handler.isSome then .executing work
    else .finished work Executor.emptyHandler)

def complete (s : State) (w : WorkerID) (work : WorkItem) (outcome : ExecutionOutcome) : State :=
  let done := s.taskManager.complete work.spec.id outcome
  { s with taskManager := done.2.2 }.setThread w
    (match done.2.1 with
      | some completion => .reporting completion
      | none => .returning)

/-- The first section of `OnWorkerIdle`. -/
def idleErase (s : State) (w : WorkerID) : State :=
  match s.running.lookup w with
  | some reservation =>
    { s with running := s.running.erase w }.setThread w (.releasing reservation)
  | none => s.setThread w .waking

def idleRelease (s : State) (w : WorkerID) (reservation : RunningReservation) : State :=
  let done := s.resourceManager.release w reservation.resources
  { s with resourceManager := done.2 }.setThread w .waking

/-- The second section of `OnWorkerIdle`. -/
def idleWake (s : State) (w : WorkerID) : State :=
  let wake := if s.started && !s.stopping then true else s.wakeRequested
  { s with wakeRequested := wake }.setThread w .announcing

def threadStep (s : State) (w : WorkerID) : ThreadAction → Option State
  | .take => (s.worker w).take.map (s.setWorker w)
  | .markRunning =>
    match (s.worker w).thread with
    | .taken work => some (markRunning s w work)
    | _ => none
  | .invoke =>
    match (s.worker w).thread with
    | .marked work => some (invoke s w work)
    | _ => none
  | .leaveHandler exit =>
    match (s.worker w).thread with
    | .executing work => some (s.setThread w (.finished work (Executor.outcome exit)))
    | _ => none
  | .complete =>
    match (s.worker w).thread with
    | .finished work outcome => some (complete s w work outcome)
    | _ => none
  | .reported =>
    match (s.worker w).thread with
    | .reporting _ => some (s.setThread w .returning)
    | _ => none
  | .becomeIdle =>
    match (s.worker w).thread with
    | .returning => some (s.setWorker w (s.worker w).becomeIdle)
    | _ => none
  | .idleErase =>
    match (s.worker w).thread, s.holder with
    | .notifying, none => some (idleErase s w)
    | _, _ => none
  | .idleRelease =>
    match (s.worker w).thread with
    | .releasing reservation => some (idleRelease s w reservation)
    | _ => none
  | .idleWake =>
    match (s.worker w).thread, s.holder with
    | .waking, none => some (idleWake s w)
    | _, _ => none
  | .idleNotify =>
    match (s.worker w).thread with
    | .announcing => some ({ s with sleeping := [] }.setThread w .waiting)
    | _ => none

/-! ## Start and Shutdown -/

inductive LifecycleAction where
  | startBegin
  | startPool
  | startScheduler
  | startOpen
  | shutdownBegin
  | shutdownDrain
  | shutdownDrained
  | shutdownStop
  | shutdownNotify (woken : Option Waiter)
  | shutdownJoin
  | shutdownStopped
  | shutdownPool
  | shutdownWorker
  | shutdownJoinWorker
  | shutdownReset
  | shutdownPublish

/-- The loop of `Start` over the workers; it stops at the first refusal. -/
def registerAll (capacity : ResourceSet) : List WorkerID → ResourceManager →
    Status × ResourceManager
  | [], rm => (.OK, rm)
  | w :: rest, rm =>
    let done := rm.registerWorker w capacity
    if done.1.ok then registerAll capacity rest done.2 else done

def startBegin (s : State) : State :=
  if s.runtimeStarted then s
  else if s.resourcesInitialized then { s with lifecycle := some .startingPool }
  else
    let done := registerAll s.resourcesPerWorker s.pool.workerIds s.resourceManager
    if done.1.ok then
      { s with
        resourceManager := done.2, resourcesInitialized := true,
        lifecycle := some .startingPool }
    else { s with resourceManager := done.2 }

def startPool (s : State) : State :=
  let done := s.pool.start
  { s with pool := done.2, lifecycle := if done.1.ok then some .startingScheduler else none }

def startScheduler (s : State) : State :=
  if s.started then { s with lifecycle := some .opening }
  else { s with
    stopping := false, wakeRequested := true, started := true, loop := .atWait,
    lifecycle := some .opening }

/-- `Drain` inside `Shutdown`: its predicate holds, or it sleeps. -/
def shutdownWait (s : State) : State :=
  if s.drained then { s with control := .stoppingScheduler }
  else { s with control := .waitingDrain, sleeping := .shutdown :: s.sleeping }

def shutdownStop (s : State) : State :=
  if s.started then { s with stopping := true, wakeRequested := true, control := .notifying }
  else { s with control := .closingPool }

def shutdownPool (s : State) : State :=
  if s.pool.started then
    { s with pool := s.pool.close, control := .stoppingWorkers s.pool.workerIds }
  else { s with control := .publishing }

def shutdownWorker (s : State) (rest : List WorkerID) : State :=
  match rest with
  | [] => { s with control := .publishing }
  | w :: rest =>
    if (s.worker w).started then
      { s.setWorker w (s.worker w).requestStop with control := .joiningWorker w rest }
    else { s with control := .stoppingWorkers rest }

def lifecycleStep (s : State) : LifecycleAction → Option State
  | .startBegin =>
    match s.lifecycle, s.control with
    | none, .off => some (startBegin s)
    | _, _ => none
  | .startPool =>
    match s.lifecycle with
    | some .startingPool => some (startPool s)
    | _ => none
  | .startScheduler =>
    match s.lifecycle, s.holder with
    | some .startingScheduler, none => some (startScheduler s)
    | _, _ => none
  | .startOpen =>
    match s.lifecycle with
    | some .opening => some { s with runtimeStarted := true, accepting := true, lifecycle := none }
    | _ => none
  | .shutdownBegin =>
    match s.lifecycle, s.control with
    | none, .off =>
      if s.runtimeStarted then some { s with accepting := false, control := .draining } else some s
    | _, _ => none
  | .shutdownDrain =>
    match s.control, s.holder with
    | .draining, none => if s.started then some (shutdownWait s) else some { s with control := .off }
    | _, _ => none
  | .shutdownDrained =>
    match s.control, s.holder with
    | .waitingDrain, none => if .shutdown ∈ s.sleeping then none else some (shutdownWait s)
    | _, _ => none
  | .shutdownStop =>
    match s.control, s.holder with
    | .stoppingScheduler, none => some (shutdownStop s)
    | _, _ => none
  | .shutdownNotify woken =>
    match s.control with
    | .notifying => (notifyOne s.sleeping woken).map (fun sleeping =>
        { s with sleeping := sleeping, control := .joiningLoop })
    | _ => none
  | .shutdownJoin =>
    match s.control with
    | .joiningLoop =>
      if s.loop = .exited ∨ s.loop = .off then
        some { s with loop := .off, control := .loopJoined }
      else none
    | _ => none
  | .shutdownStopped =>
    match s.control, s.holder with
    | .loopJoined, none => some { s with started := false, control := .closingPool }
    | _, _ => none
  | .shutdownPool =>
    match s.control with
    | .closingPool => some (shutdownPool s)
    | _ => none
  | .shutdownWorker =>
    match s.control with
    | .stoppingWorkers rest => some (shutdownWorker s rest)
    | _ => none
  | .shutdownJoinWorker =>
    match s.control with
    | .joiningWorker w rest =>
      if (s.worker w).thread = .exited then some { s with control := .resettingWorker w rest }
      else none
    | _ => none
  | .shutdownReset =>
    match s.control with
    | .resettingWorker w rest =>
      some { s.setWorker w (s.worker w).reset with control := .stoppingWorkers rest }
    | _ => none
  | .shutdownPublish =>
    match s.control, s.lifecycle with
    | .publishing, none =>
      some { s with runtimeStarted := false, accepting := false, control := .off }
    | _, _ => none

/-! ## The system -/

inductive Action where
  | call (a : CallAction)
  | loop (a : LoopAction)
  | thread (w : WorkerID) (a : ThreadAction)
  | lifecycle (a : LifecycleAction)
  /-- A spurious wakeup. -/
  | wake (waiter : Waiter)

def step (s : State) : Action → Option State
  | .call a => callStep s a
  | .loop a => loopStep s a
  | .thread w a => threadStep s w a
  | .lifecycle a => lifecycleStep s a
  | .wake waiter =>
    if waiter ∈ s.sleeping then some { s with sleeping := s.sleeping.erase waiter } else none

/-! ## A worker and tasks for concrete runs -/

namespace Sample

def workerId : WorkerID := .ofByte 1
def task (b : UInt8) : TaskID := .ofByte b

/-- Room for two tasks of one CPU each. -/
def capacity : ResourceSet := Sample.cpu Sample.twoCpus

def spec (b : UInt8) : TaskSpec where
  tenantId := .ofByte 1
  id := task b
  agentId := .ofByte 1
  name := "task"
  resources := ⟨Sample.cpu Sample.oneCpu⟩
  inputs := []

def handler : TaskHandler := some ⟨"main", [], ""⟩

def start : List Action :=
  [.lifecycle .startBegin, .lifecycle .startPool, .lifecycle .startScheduler,
    .lifecycle .startOpen]

def submit (k : Nat) (spec : TaskSpec) (woken : Option Waiter) : List Action :=
  [.call (.submitBegin k spec handler), .call .submitRegister, .call .enqueueBegin,
    .call .enqueueMark, .call (.enqueuePush woken)]

/-- `TryScheduleOne` with one worker, which is idle and has room. -/
def schedule (executionId : ExecutionID) : List Action :=
  [.loop .check, .loop .tryBegin, .loop .trySpec, .loop .tryObserve, .loop .tryObserve,
    .loop .trySelect, .loop .tryReserve, .loop .tryAcquire, .loop .tryHandler, .loop .tryToken,
    .loop .tryPop, .loop (.tryMark executionId), .loop .tryDispatch]

/-- A worker thread from its mailbox to the idle state. -/
def execute : List Action :=
  [.thread workerId .take, .thread workerId .markRunning, .thread workerId .invoke,
    .thread workerId (.leaveHandler (.returned .OK [])), .thread workerId .complete,
    .thread workerId .becomeIdle]

/-- The idle callback after an execution whose reservation is found. -/
def callback : List Action :=
  [.thread workerId .idleErase, .thread workerId .idleRelease, .thread workerId .idleWake,
    .thread workerId .idleNotify]

def runtime : State := .initial [workerId] capacity false

end Sample

end LocalSystem

end AgentRuntime
