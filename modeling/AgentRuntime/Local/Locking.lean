import AgentRuntime.Library.Locks
import AgentRuntime.Local.Sections

/-!
# The mutexes of the local runtime

In the model of the local runtime a section takes effect at once, and the two
mutexes that are held from one section to the next are part of its state. Here
every section is given the `lock_guard`s of the source, of all seven kinds of
mutex, and the threads lock and unlock them one by one.
-/
namespace AgentRuntime

namespace LocalSystem

open Locks (Op Plays guarded leave)

inductive Mutex where
  /-- `Runtime::lifecycle_mu_`. -/
  | lifecycle
  /-- `Scheduler::mu_`. -/
  | scheduler
  | taskManager
  | taskQueue
  | resourceManager
  | workerPool
  | worker (w : WorkerID)
  deriving DecidableEq

/-- A thread. -/
inductive Agent where
  | submit (k : Nat)
  | cancel (k : Nat)
  | getStatus (k : Nat)
  | drain (k : Nat)
  /-- Inside `Start`, or inside a `Shutdown` called after it. -/
  | control
  /-- A further call of `Shutdown`. -/
  | shutdown (k : Nat)
  | loop
  | worker (w : WorkerID)
  deriving DecidableEq

/-- The runtime, with any number of further `Shutdown` calls that nothing keeps apart. They share
one place among the sleeping threads, which are woken spuriously anyway. -/
structure Threads where
  runtime : State
  shutdowns : Nat → ControlPhase

/-- The runtime as a further call of `Shutdown` sees it. -/
def Threads.facing (s : Threads) (k : Nat) : State :=
  { s.runtime with control := s.shutdowns k }

def Threads.initial (workerIds : List WorkerID) (capacity : ResourceSet) (callback : Bool) :
    Threads := ⟨.initial workerIds capacity callback, fun _ => .off⟩

/-- A section of some thread. -/
inductive Move where
  | step (a : Action)
  | shutdown (k : Nat) (a : LifecycleAction)
  /-- `GetStatus` only reads. -/
  | getStatus (k : Nat) (t : TaskID)

def LifecycleAction.isShutdown : LifecycleAction → Bool
  | .startBegin | .startPool | .startScheduler | .startOpen => false
  | .shutdownBegin | .shutdownDrain | .shutdownDrained | .shutdownStop | .shutdownNotify _
  | .shutdownJoin | .shutdownStopped | .shutdownPool | .shutdownWorker | .shutdownJoinWorker
  | .shutdownReset | .shutdownPublish => true

def moveStep (s : Threads) : Move → Option Threads
  | .step a => (step s.runtime a).map fun u => { s with runtime := u }
  | .shutdown k a =>
    if a.isShutdown = true then
      (lifecycleStep (s.facing k) a).map fun u =>
        { runtime := { u with control := s.runtime.control }
          shutdowns := fun k' => if k' = k then u.control else s.shutdowns k' }
    else none
  | .getStatus _ _ => some s

def Call.agent : Call → Agent
  | .submit k => .submit k
  | .cancel k => .cancel k

def actor (s : State) : Action → Option Agent
  | .call (.drainBegin k) | .call (.drainWait k) => some (.drain k)
  | .call a => (caller s (.call a)).map Call.agent
  | .loop _ => some .loop
  | .thread w _ => some (.worker w)
  | .lifecycle _ => some .control
  | .wake _ => none

def agent (s : Threads) : Move → Option Agent
  | .step a => actor s.runtime a
  | .shutdown k _ => some (.shutdown k)
  | .getStatus k _ => some (.getStatus k)

/-! ## The scopes of a section -/

/-- `WorkerPool::OnWorkerIdle` copies the idle callback. -/
def passes : Move → List Mutex
  | .step (.thread _ .idleErase) => [.workerPool]
  | _ => []

def callKeeps : CallAction → List Mutex
  | .submitBegin _ _ _ => [.lifecycle]
  | .enqueueBegin | .cancelBegin _ _ | .drainBegin _ | .drainWait _ => [.scheduler]
  | .submitRegister | .enqueueMark | .enqueuePush _ | .cancelRemove | .cancelTask
  | .cancelReturn _ => []

def loopKeeps : LoopAction → List Mutex
  | .wait | .check | .tryBegin => [.scheduler]
  | .trySpec | .tryObserve | .trySelect | .tryReserve | .tryAcquire | .tryHandler | .tryToken
  | .tryPop | .tryMark _ | .tryDispatch | .undoRelease | .undoReserve => []

def threadKeeps : ThreadAction → List Mutex
  | .idleErase | .idleWake => [.scheduler]
  | .take | .markRunning | .invoke | .leaveHandler _ | .complete | .reported | .becomeIdle
  | .idleRelease | .idleNotify => []

def lifecycleKeeps : LifecycleAction → List Mutex
  | .startBegin | .shutdownBegin | .shutdownPublish => [.lifecycle]
  | .startPool => [.workerPool]
  | .startScheduler | .shutdownDrain | .shutdownDrained | .shutdownStop | .shutdownStopped =>
    [.scheduler]
  | .startOpen | .shutdownNotify _ | .shutdownJoin | .shutdownPool | .shutdownWorker
  | .shutdownJoinWorker | .shutdownReset => []

def actionKeeps : Action → List Mutex
  | .call a => callKeeps a
  | .loop a => loopKeeps a
  | .thread _ a => threadKeeps a
  | .lifecycle a => lifecycleKeeps a
  | .wake _ => []

def keeps : Move → List Mutex
  | .step a => actionKeeps a
  | .shutdown _ a => lifecycleKeeps a
  | .getStatus _ _ => []

def callScopes : CallAction → List Mutex
  | .submitRegister | .enqueueMark | .cancelBegin _ _ | .cancelTask => [.taskManager]
  | .enqueuePush _ | .cancelRemove => [.taskQueue]
  | .submitBegin _ _ _ | .enqueueBegin | .cancelReturn _ | .drainBegin _ | .drainWait _ => []

/-- An operation that the pool passes on to one of its workers. -/
def workerScopes (s : State) (w : WorkerID) : List Mutex :=
  if s.pool.started = true ∧ (s.pool.findWorkerLocked w).isSome = true then
    [.workerPool, .worker w]
  else [.workerPool]

def phaseScopes (s : State) : TryPhase → List Mutex
  | .fetchingSpec _ | .fetchingHandler _ | .fetchingToken _ _ | .marking _ _ _ => [.taskManager]
  | .observing _ _ (w :: _) _ =>
    if (s.pool.findWorkerLocked w).isSome = true then [.worker w] else []
  | .selecting _ _ (_ :: _) => [.resourceManager]
  | .observing _ _ [] _ | .selecting _ _ [] => []
  | .reserving p | .dispatching p _ => workerScopes s p.worker
  | .acquiring _ | .undoRelease _ => [.resourceManager]
  | .popping _ _ _ => [.taskQueue]
  | .undoReserve w => workerScopes s w

def loopScopes (s : State) : List Mutex :=
  match s.holder with
  | some (.scheduling phase) => phaseScopes s phase
  | _ => []

def threadScopes (w : WorkerID) : ThreadAction → List Mutex
  | .take | .becomeIdle => [.worker w]
  | .markRunning | .complete => [.taskManager]
  | .idleRelease => [.resourceManager]
  | .invoke | .leaveHandler _ | .reported | .idleErase | .idleWake | .idleNotify => []

def lifecycleScopes (s : State) : LifecycleAction → List Mutex
  | .shutdownPool => [.workerPool]
  | .shutdownWorker =>
    match s.control with
    | .stoppingWorkers (w :: _) => [.worker w]
    | _ => []
  | .shutdownReset =>
    match s.control with
    | .resettingWorker w _ => [.worker w]
    | _ => []
  | .startBegin | .startPool | .startScheduler | .startOpen | .shutdownBegin | .shutdownDrain
  | .shutdownDrained | .shutdownStop | .shutdownNotify _ | .shutdownJoin | .shutdownStopped
  | .shutdownJoinWorker | .shutdownPublish => []

def actionScopes (s : State) : Action → List Mutex
  | .call a => callScopes a
  | .loop _ => loopScopes s
  | .thread w a => threadScopes w a
  | .lifecycle a => lifecycleScopes s a
  | .wake _ => []

def scopes (s : Threads) : Move → List Mutex
  | .step a => actionScopes s.runtime a
  | .shutdown k a => lifecycleScopes (s.facing k) a
  | .getStatus _ _ => [.taskManager]

/-! ## After the effect -/

/-- The scopes of a call, from the outside in, end when it returns. -/
def onReturn (status : Option Status) (scopes : List Mutex) : List (Op Mutex) :=
  if status.isSome = true then leave scopes else []

/-- The loop of `Submit` over `CanFitTotal`. -/
def canFitLocks (s : State) (spec : TaskSpec) : List WorkerID → List (Op Mutex)
  | [] => []
  | w :: rest => guarded .resourceManager ++
      if s.resourceManager.canFitTotal w spec.resources = true then [] else canFitLocks s spec rest

/-- The checks of `Submit` before it registers the task. -/
def checkLocks (s : State) (spec : TaskSpec) (handler : TaskHandler) : List (Op Mutex) :=
  if s.runtimeStarted = true ∧ s.accepting = true ∧ spec.validate.ok = true ∧
      handler.isSome = true then
    guarded .workerPool ++ canFitLocks s spec s.pool.workerIds
  else []

def submitReturning (s : State) (k : Nat) (u : State) : CallAction → List (Op Mutex)
  | .submitBegin _ spec handler =>
    checkLocks s spec handler ++ onReturn (u.submits.lookup k) [.lifecycle]
  | .submitRegister => onReturn (u.submits.lookup k) [.lifecycle]
  | _ => onReturn (u.submits.lookup k) [.lifecycle, .scheduler]

/-- The predicate of `Drain` asks whether the queue is empty. -/
def drainReturning (s : State) : CallAction → List (Op Mutex)
  | .drainBegin _ => (if s.started = true then guarded .taskQueue else []) ++ [.unlock .scheduler]
  | _ => guarded .taskQueue ++ [.unlock .scheduler]

/-- `TryScheduleOne` returns, or goes on. -/
def tryReturning (u : State) : List (Op Mutex) :=
  if u.holder.isNone = true then [.unlock .scheduler] else []

def loopReturning (s u : State) : LoopAction → List (Op Mutex)
  | .wait | .check => [.unlock .scheduler]
  | .tryBegin => (if s.stopping = true then [] else guarded .taskQueue) ++ tryReturning u
  -- `IdleWorkers` holds the mutex of the pool over its loop
  | .trySpec => if u.holder.isNone = true then [.unlock .scheduler] else [.lock .workerPool]
  | .tryObserve =>
    match u.holder with
    | some (.scheduling (.observing _ _ _ _)) => []
    | _ => .unlock .workerPool :: tryReturning u
  | .trySelect | .tryReserve | .tryAcquire | .tryHandler | .tryToken | .tryPop | .tryMark _
  | .tryDispatch | .undoRelease | .undoReserve => tryReturning u

/-- The loop of `Start` over `RegisterWorker`. -/
def registerLocks (capacity : ResourceSet) : List WorkerID → ResourceManager → List (Op Mutex)
  | [], _ => []
  | w :: rest, rm => guarded .resourceManager ++
      if (rm.registerWorker w capacity).1.ok = true then
        registerLocks capacity rest (rm.registerWorker w capacity).2
      else []

def startReturning (u : State) : List (Op Mutex) :=
  if u.lifecycle.isNone = true then [.unlock .lifecycle] else []

def lifecycleReturning (s u : State) : LifecycleAction → List (Op Mutex)
  | .startBegin =>
    (if s.runtimeStarted = true ∨ s.resourcesInitialized = true then []
    else guarded .workerPool ++
      registerLocks s.resourcesPerWorker s.pool.workerIds s.resourceManager) ++ startReturning u
  -- `WorkerPool::Start` holds the mutex of the pool over its loop
  | .startPool =>
    (if s.pool.started = true then [] else (s.pool.workerIds.map Mutex.worker).flatMap guarded) ++
      .unlock .workerPool :: startReturning u
  | .startOpen => startReturning u
  | .shutdownBegin | .shutdownPublish => [.unlock .lifecycle]
  | .shutdownDrain =>
    (if s.started = true then guarded .taskQueue else []) ++ [.unlock .scheduler]
  | .shutdownDrained => guarded .taskQueue ++ [.unlock .scheduler]
  | .startScheduler | .shutdownStop | .shutdownStopped => [.unlock .scheduler]
  | .shutdownNotify _ | .shutdownJoin | .shutdownPool | .shutdownWorker | .shutdownJoinWorker
  | .shutdownReset => []

def actionReturning (s : State) (x : Agent) (a : Action) (u : State) : List (Op Mutex) :=
  match x, a with
  | .submit k, .call a => submitReturning s k u a
  | .cancel k, .call _ => onReturn (u.cancels.lookup k) [.scheduler]
  | .drain _, .call a => drainReturning s a
  | .loop, .loop a => loopReturning s u a
  | .worker _, .thread _ .idleErase | .worker _, .thread _ .idleWake => [.unlock .scheduler]
  | .control, .lifecycle a => lifecycleReturning s u a
  | _, _ => []

def returning (s : Threads) (x : Agent) (a : Move) (u : Threads) : List (Op Mutex) :=
  match a with
  | .step a => actionReturning s.runtime x a u.runtime
  | .shutdown k a => lifecycleReturning (s.facing k) (u.facing k) a
  | .getStatus _ _ => []

def locking : Locks.System Threads Move Agent Mutex where
  step := moveStep
  thread := agent
  passes := passes
  keeps := keeps
  scopes := scopes
  returning := returning

end LocalSystem

end AgentRuntime
