import AgentRuntime.Library.Brackets
import AgentRuntime.Library.Run
import AgentRuntime.Worker.Worker

/-!
# One worker, its callers and its thread

Any thread may call `Start`, `Reserve`, `Dispatch` and `ReleaseReservation`,
each a section under `mu_`. `Worker::Run` and `Worker::Shutdown` are several
sections with other calls in between, and one Shutdown runs at a time. Other
threads use the task manager as they like. Next to the worker the state
carries what has happened so far.
-/
namespace AgentRuntime

/-- How far a call of `Worker::Shutdown` is. -/
inductive ShutdownPhase where
  /-- No call is under way. -/
  | off
  /-- Has released `mu_` and waits for the thread in `join`. -/
  | joining
  /-- About to enter the last section. -/
  | resetting
  deriving DecidableEq

namespace WorkerSystem

inductive Event where
  /-- `Reserve`, `Dispatch` and `ReleaseReservation` that returned OK. -/
  | reserved
  | dispatched (work : WorkItem)
  | released
  /-- The last section of a Shutdown. -/
  | reset
  /-- A Shutdown returned. -/
  | returned
  | took (work : WorkItem)
  /-- `MarkRunning` returned, with an OK or not. -/
  | marked (work : WorkItem) (ok : Bool)
  /-- The handler was called, and left. -/
  | entered (work : WorkItem)
  | left (work : WorkItem) (exit : HandlerExit)
  /-- `Complete` was called. -/
  | completed (work : WorkItem) (outcome : ExecutionOutcome)

end WorkerSystem

structure WorkerSystem where
  worker : Worker
  taskManager : TaskManager
  shutdown : ShutdownPhase
  log : List WorkerSystem.Event

namespace WorkerSystem

def initial (taskManager : TaskManager) : WorkerSystem := ⟨.new, taskManager, .off, []⟩

/-- A call that is one section; an OK is recorded. -/
def call (s : WorkerSystem) (done : Status × Worker) (event : Event) : WorkerSystem :=
  { s with worker := done.2, log := s.log ++ if done.1.ok then [event] else [] }

/-- The thread goes on. -/
def advance (s : WorkerSystem) (thread : Thread) (events : List Event) : WorkerSystem :=
  { s with worker := s.worker.setThread thread, log := s.log ++ events }

def markRunning (s : WorkerSystem) (work : WorkItem) : WorkerSystem :=
  let done := s.taskManager.markRunning work.spec.id
  { s with taskManager := done.2 }.advance (if done.1.ok then .marked work else .returning)
    [.marked work done.1.ok]

/-- `Execute` up to the call of the handler, which an empty one does not have. -/
def invoke (s : WorkerSystem) (work : WorkItem) : WorkerSystem :=
  if work.handler.isSome then s.advance (.executing work) [.entered work]
  else s.advance (.finished work Executor.emptyHandler) []

/-- `Complete` up to the completion callback, which runs without a lock. -/
def complete (s : WorkerSystem) (work : WorkItem) (outcome : ExecutionOutcome) : WorkerSystem :=
  let done := s.taskManager.complete work.spec.id outcome
  { s with taskManager := done.2.2 }.advance (done.2.1.elim .returning .reporting)
    [.completed work outcome]

/-- The first section of `Shutdown`, which returns at once when the worker is not started. -/
def requestStop (s : WorkerSystem) : WorkerSystem :=
  if s.worker.started then { s with worker := s.worker.requestStop, shutdown := .joining }
  else { s with log := s.log ++ [.returned] }

/-- The last section of `Shutdown`, and its return. -/
def reset (s : WorkerSystem) : WorkerSystem :=
  { s with worker := s.worker.reset, shutdown := .off, log := s.log ++ [.reset, .returned] }

inductive Label where
  | start
  | reserve
  | dispatch (work : WorkItem)
  | releaseReservation
  /-- Another thread uses the task manager. -/
  | elsewhere (taskManager : TaskManager)
  | take
  | markRunning (work : WorkItem)
  | invoke (work : WorkItem)
  | leaveHandler (work : WorkItem) (exit : HandlerExit)
  | complete (work : WorkItem) (outcome : ExecutionOutcome)
  | reported (completion : TaskCompletion)
  | becomeIdle
  /-- The idle callback has been called and has returned. -/
  | idleCallback
  | requestStop
  /-- `join` throws when the handler itself calls `Shutdown`. -/
  | joinThrows (work : WorkItem)
  | joined
  | reset

def step (s : WorkerSystem) : Label → Option WorkerSystem
  | .start => some { s with worker := s.worker.start }
  | .reserve => some (s.call s.worker.reserve .reserved)
  | .dispatch work => some (s.call (s.worker.dispatch work) (.dispatched work))
  | .releaseReservation => some (s.call s.worker.releaseReservation .released)
  | .elsewhere taskManager => some { s with taskManager := taskManager }
  | .take => s.worker.take.map fun worker =>
    { s with worker := worker, log := s.log ++ (s.worker.mailbox.map .took).toList }
  | .markRunning work => if s.worker.thread = .taken work then some (s.markRunning work) else none
  | .invoke work => if s.worker.thread = .marked work then some (s.invoke work) else none
  | .leaveHandler work exit =>
    if s.worker.thread = .executing work then
      some (s.advance (.finished work (Executor.outcome exit)) [.left work exit])
    else none
  | .complete work outcome =>
    if s.worker.thread = .finished work outcome then some (s.complete work outcome) else none
  | .reported completion =>
    if s.worker.thread = .reporting completion then some (s.advance .returning []) else none
  | .becomeIdle =>
    if s.worker.thread = .returning then some { s with worker := s.worker.becomeIdle } else none
  | .idleCallback =>
    if s.worker.thread = .notifying then some (s.advance .waiting []) else none
  | .requestStop => if s.shutdown = .off then some s.requestStop else none
  | .joinThrows work =>
    if s.shutdown = .joining ∧ s.worker.thread = .executing work then
      some { s with shutdown := .off }
    else none
  | .joined =>
    if s.shutdown = .joining ∧ s.worker.thread = .exited then some { s with shutdown := .resetting }
    else none
  | .reset => if s.shutdown = .resetting then some s.reset else none

namespace Event

/-- A successful `Reserve` opens a reservation. -/
def opens (e : Event) : Prop := e = .reserved

/-- What ends a reservation. -/
def closes : Event → Prop
  | dispatched _ | released | reset => True
  | reserved | returned | took _ | marked _ _ | entered _ | left _ _ | completed _ _ => False

def dispatched? : Event → Option WorkItem
  | dispatched work => some work
  | _ => none

def took? : Event → Option WorkItem
  | took work => some work
  | _ => none

/-- The events of the execution step of `Run`. -/
def ofRun : Event → Bool
  | marked _ _ | entered _ | left _ _ | completed _ _ => true
  | reserved | dispatched _ | released | reset | returned | took _ => false

end Event

/-- The items whose `Dispatch` returned OK, in order. -/
def accepted (log : List Event) : List WorkItem := log.filterMap Event.dispatched?

/-- The items taken out of the mailbox, in order. -/
def takenOut (log : List Event) : List WorkItem := log.filterMap Event.took?

/-- What the execution step of `Run` has done. -/
def executions (log : List Event) : List Event := log.filter Event.ofRun

@[simp] theorem accepted_append (log more : List Event) :
    accepted (log ++ more) = accepted log ++ accepted more := List.filterMap_append
@[simp] theorem takenOut_append (log more : List Event) :
    takenOut (log ++ more) = takenOut log ++ takenOut more := List.filterMap_append
@[simp] theorem executions_append (log more : List Event) :
    executions (log ++ more) = executions log ++ executions more := List.filter_append ..

/-- An item that has been carried through the execution step of `Run`. -/
inductive Carried where
  /-- `MarkRunning` refused. -/
  | refused (work : WorkItem)
  | empty (work : WorkItem) (handler : work.handler = none)
  | executed (work : WorkItem) (handler : work.handler.isSome = true) (exit : HandlerExit)

namespace Carried

def work : Carried → WorkItem
  | refused work => work
  | empty work _ => work
  | executed work _ _ => work

/-- What the step did with the item: `MarkRunning` and, if that succeeded, the handler and
`Complete`. -/
def trace : Carried → List Event
  | refused work => [.marked work false]
  | empty work _ => [.marked work true, .completed work Executor.emptyHandler]
  | executed work _ exit =>
    [.marked work true, .entered work, .left work exit, .completed work (Executor.outcome exit)]

end Carried

end WorkerSystem

end AgentRuntime
