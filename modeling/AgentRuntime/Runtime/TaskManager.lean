import AgentRuntime.Core.Task
import AgentRuntime.Library.UnorderedMap

/-!
# The task manager

The authoritative records of the local tasks. Each operation is one section
under the manager's mutex. A completion callback runs after the section, so an
operation that completes a task returns the completion to be passed to it.
-/
namespace AgentRuntime

inductive ExecutionState where
  | pending | queued | scheduled | running | succeeded | failed | cancelled
  deriving DecidableEq

def ExecutionState.isTerminal : ExecutionState → Bool
  | .succeeded | .failed | .cancelled => true
  | .pending | .queued | .scheduled | .running => false

/-- Accepted and not terminal. -/
def ExecutionState.isActive : ExecutionState → Bool
  | .queued | .scheduled | .running => true
  | .pending | .succeeded | .failed | .cancelled => false

theorem ExecutionState.isTerminal_eq_false {x : ExecutionState} (h : x.isActive = true) :
    x.isTerminal = false := by
  cases x <;> first | rfl | cases h

structure TaskRecord where
  spec : TaskSpec
  handler : TaskHandler
  state : ExecutionState
  worker : Option WorkerID
  attempt : UInt32
  executionId : ExecutionID
  /-- The value of the cancellation token. -/
  cancelRequested : Bool
  terminalStatus : Status
  result : ByteString
  deriving DecidableEq

structure TaskSnapshot where
  id : TaskID
  state : ExecutionState
  worker : Option WorkerID
  attempt : UInt32
  executionId : ExecutionID
  deriving DecidableEq

structure TaskCompletion where
  taskId : TaskID
  state : ExecutionState
  executionId : ExecutionID
  status : Status
  result : ByteString
  deriving DecidableEq

structure TaskManager where
  records : UnorderedMap TaskID TaskRecord
  /-- A completion callback is installed. -/
  completionCallback : Bool

namespace TaskManager

/-- The switch of `TransitionLocked`. -/
def legal : ExecutionState → ExecutionState → Bool
  | .pending, next => next = .queued
  | .queued, next => next = .scheduled || next = .cancelled
  | .scheduled, next => next = .running
  | .running, next => next = .succeeded || next = .failed || next = .cancelled
  | .succeeded, _ | .failed, _ | .cancelled, _ => false

def illegalTransition : Status := .FailedPrecondition "illegal task lifecycle transition"

def store (tm : TaskManager) (id : TaskID) (record : TaskRecord) : TaskManager :=
  { tm with records := tm.records.insert id record }

def newRecord (spec : TaskSpec) (handler : TaskHandler) : TaskRecord where
  spec := spec
  handler := handler
  state := .pending
  worker := none
  attempt := 0
  executionId := .Nil
  cancelRequested := false
  terminalStatus := .OK
  result := []

def register (tm : TaskManager) (spec : TaskSpec) (handler : TaskHandler) :
    Status × TaskManager :=
  match tm.records.lookup spec.id with
  | some _ => (.AlreadyExists "Task already registered", tm)
  | none =>
    if handler.isNone then (.InvalidArgument "task handler must not be empty", tm)
    else (.OK, tm.store spec.id (newRecord spec handler))

/-- The shape of `MarkQueued`, `MarkScheduled` and `MarkRunning`. -/
def mark (tm : TaskManager) (id : TaskID) (missing : String) (next : ExecutionState)
    (update : TaskRecord → TaskRecord) : Status × TaskManager :=
  match tm.records.lookup id with
  | none => (.NotFound missing, tm)
  | some record =>
    if legal record.state next then (.OK, tm.store id (update { record with state := next }))
    else (illegalTransition, tm)

def markQueued (tm : TaskManager) (id : TaskID) : Status × TaskManager :=
  tm.mark id "task is not registered" .queued (fun record => record)

def markScheduled (tm : TaskManager) (id : TaskID) (workerId : WorkerID)
    (executionId : ExecutionID) : Status × TaskManager :=
  tm.mark id "Task is not registered" .scheduled (fun record => { record with
    attempt := record.attempt + 1, worker := some workerId, executionId := executionId })

def markRunning (tm : TaskManager) (id : TaskID) : Status × TaskManager :=
  tm.mark id "task is not registered" .running (fun record => record)

def terminalState (status : Status) : ExecutionState :=
  if status.ok then .succeeded else if status.isCancelled then .cancelled else .failed

def completionOf (record : TaskRecord) : TaskCompletion where
  taskId := record.spec.id
  state := record.state
  executionId := record.executionId
  status := record.terminalStatus
  result := record.result

/-- What the callback, if there is one, is to be called with. -/
def notification (tm : TaskManager) (record : TaskRecord) : Option TaskCompletion :=
  if tm.completionCallback then some (completionOf record) else none

def complete (tm : TaskManager) (id : TaskID) (outcome : ExecutionOutcome) :
    Status × Option TaskCompletion × TaskManager :=
  match tm.records.lookup id with
  | none => (.NotFound "task is not registered", none, tm)
  | some record =>
    if legal record.state (terminalState outcome.status) then
      let done := { record with
        state := terminalState outcome.status, terminalStatus := outcome.status,
        result := outcome.result }
      (.OK, tm.notification done, tm.store id done)
    else (illegalTransition, none, tm)

/-- A record cancelled before it was executed. -/
def cancelledRecord (record : TaskRecord) : TaskRecord :=
  { record with
    state := .cancelled, cancelRequested := true,
    terminalStatus := .Cancelled "task cancelled before execution", result := [] }

def cancel (tm : TaskManager) (id : TaskID) : Status × Option TaskCompletion × TaskManager :=
  match tm.records.lookup id with
  | none => (.NotFound "task is not registered", none, tm)
  | some record =>
    if record.state = .queued then
      -- `TransitionLocked` is consulted although the state has just been tested
      if legal record.state .cancelled then
        (.OK, tm.notification (cancelledRecord record), tm.store id (cancelledRecord record))
      else (illegalTransition, none, tm)
    else if record.state = .running then
      (.OK, none, tm.store id { record with cancelRequested := true })
    else if record.state.isTerminal then
      (.FailedPrecondition "task is already terminal", none, tm)
    else (.FailedPrecondition "task cannot be cancelled in its current state", none, tm)

/-- The shape of the four getters. -/
def get {α : Type} (tm : TaskManager) (id : TaskID) (read : TaskRecord → α) :
    Except Status α :=
  match tm.records.lookup id with
  | none => .error (.NotFound "task is not registered")
  | some record => .ok (read record)

def getSnapshot (tm : TaskManager) (id : TaskID) : Except Status TaskSnapshot :=
  tm.get id (fun record =>
    ⟨record.spec.id, record.state, record.worker, record.attempt, record.executionId⟩)
def getSpec (tm : TaskManager) (id : TaskID) : Except Status TaskSpec := tm.get id TaskRecord.spec
def getHandler (tm : TaskManager) (id : TaskID) : Except Status TaskHandler :=
  tm.get id TaskRecord.handler
/-- A token is named by the task whose record owns it. -/
def getCancellationToken (tm : TaskManager) (id : TaskID) : Except Status TaskID :=
  tm.get id (fun _ => id)

/-! ## What each operation does -/

variable {tm : TaskManager} {id : TaskID}

@[simp] theorem lookup_store (tm : TaskManager) (id t : TaskID) (record : TaskRecord) :
    (tm.store id record).records.lookup t = if t = id then some record else tm.records.lookup t :=
  UnorderedMap.lookup_insert_eq tm.records id t record
@[simp] theorem completionCallback_store (tm : TaskManager) (id : TaskID) (record : TaskRecord) :
    (tm.store id record).completionCallback = tm.completionCallback := rfl

@[simp] theorem legal_queued (s : ExecutionState) : legal s .queued = true ↔ s = .pending := by
  cases s <;> simp [legal]
@[simp] theorem legal_scheduled (s : ExecutionState) : legal s .scheduled = true ↔ s = .queued := by
  cases s <;> simp [legal]
@[simp] theorem legal_running (s : ExecutionState) : legal s .running = true ↔ s = .scheduled := by
  cases s <;> simp [legal]

theorem isTerminal_terminalState (status : Status) :
    (terminalState status).isTerminal = true := by
  simp only [terminalState]
  split
  · rfl
  · split <;> rfl

theorem terminalState_ne_queued (status : Status) : terminalState status ≠ .queued := by
  intro he
  have := isTerminal_terminalState status
  rw [he] at this
  cases this

/-- A running task can be completed with any outcome. -/
theorem legal_terminalState (status : Status) :
    legal .running (terminalState status) = true := by
  simp only [terminalState]
  split
  · rfl
  · split <;> rfl

theorem register_cases (tm : TaskManager) (spec : TaskSpec) (handler : TaskHandler) :
    (∃ status, status.ok = false ∧ tm.register spec handler = (status, tm)) ∨
    tm.records.lookup spec.id = none ∧ handler.isSome = true ∧
      tm.register spec handler = (.OK, tm.store spec.id (newRecord spec handler)) := by
  simp only [register]
  cases hl : tm.records.lookup spec.id with
  | some record => exact .inl ⟨_, rfl, rfl⟩
  | none =>
    cases hh : handler with
    | none => exact .inl ⟨_, rfl, rfl⟩
    | some bound => exact .inr ⟨rfl, rfl, rfl⟩

theorem mark_cases (tm : TaskManager) (id : TaskID) (missing : String) (next : ExecutionState)
    (update : TaskRecord → TaskRecord) :
    (∃ status, status.ok = false ∧ tm.mark id missing next update = (status, tm) ∧
      ∀ record, tm.records.lookup id = some record → legal record.state next = false) ∨
    ∃ record, tm.records.lookup id = some record ∧ legal record.state next = true ∧
      tm.mark id missing next update =
        (.OK, tm.store id (update { record with state := next })) := by
  simp only [mark]
  cases hl : tm.records.lookup id with
  | none => exact .inl ⟨_, rfl, rfl, by simp⟩
  | some record =>
    cases hlegal : legal record.state next with
    | false => exact .inl ⟨illegalTransition, rfl, by simp [hlegal], by simp [hlegal]⟩
    | true => exact .inr ⟨record, rfl, hlegal, by simp [hlegal]⟩

theorem complete_cases (tm : TaskManager) (id : TaskID) (outcome : ExecutionOutcome) :
    (∃ status, status.ok = false ∧ tm.complete id outcome = (status, none, tm) ∧
      ∀ record, tm.records.lookup id = some record →
        legal record.state (terminalState outcome.status) = false) ∨
    ∃ record, tm.records.lookup id = some record ∧
      legal record.state (terminalState outcome.status) = true ∧
      ∃ done, done = { record with
          state := terminalState outcome.status, terminalStatus := outcome.status,
          result := outcome.result } ∧
        tm.complete id outcome = (.OK, tm.notification done, tm.store id done) := by
  simp only [complete]
  cases hl : tm.records.lookup id with
  | none => exact .inl ⟨_, rfl, rfl, by simp⟩
  | some record =>
    cases hlegal : legal record.state (terminalState outcome.status) with
    | false => exact .inl ⟨illegalTransition, rfl, by simp [hlegal], by simp [hlegal]⟩
    | true => exact .inr ⟨record, rfl, hlegal, _, rfl, by simp [hlegal]⟩

/-- `Cancel` refuses, cancels a queued task at once, or sets the token of a running one. -/
theorem cancel_cases (tm : TaskManager) (id : TaskID) :
    (∃ status, status.ok = false ∧ tm.cancel id = (status, none, tm) ∧
      ∀ record, tm.records.lookup id = some record →
        record.state ≠ .queued ∧ record.state ≠ .running) ∨
    (∃ record, tm.records.lookup id = some record ∧ record.state = .queued ∧
      tm.cancel id = (.OK, tm.notification (cancelledRecord record),
        tm.store id (cancelledRecord record))) ∨
    ∃ record, tm.records.lookup id = some record ∧ record.state = .running ∧
      tm.cancel id = (.OK, none, tm.store id { record with cancelRequested := true }) := by
  simp only [cancel]
  cases hl : tm.records.lookup id with
  | none => exact .inl ⟨_, rfl, rfl, by simp⟩
  | some record =>
    by_cases hqueued : record.state = .queued
    · right; left
      exact ⟨record, rfl, hqueued, by simp [hqueued, legal]⟩
    by_cases hrunning : record.state = .running
    · right; right
      exact ⟨record, rfl, hrunning, by simp [hrunning]⟩
    left
    simp only [if_neg hqueued, if_neg hrunning]
    split <;> exact ⟨_, rfl, rfl, by simp [hqueued, hrunning]⟩

theorem notification_some {record : TaskRecord} {completion : TaskCompletion}
    (h : tm.notification record = some completion) : completion = completionOf record := by
  simp only [notification] at h
  split at h
  · exact (Option.some.inj h).symm
  · cases h

theorem notification_taskId {record : TaskRecord} {completion : TaskCompletion}
    (h : tm.notification record = some completion) : completion.taskId = record.spec.id := by
  rw [notification_some h]
  rfl

theorem get_of_some {α : Type} {read : TaskRecord → α} {record : TaskRecord}
    (h : tm.records.lookup id = some record) : tm.get id read = .ok (read record) := by
  simp [get, h]

theorem get_ok {α : Type} {read : TaskRecord → α} {a : α} (h : tm.get id read = .ok a) :
    ∃ record, tm.records.lookup id = some record ∧ a = read record := by
  simp only [get] at h
  split at h
  · cases h
  · rename_i record hl
    cases h
    exact ⟨record, hl, rfl⟩

end TaskManager

end AgentRuntime
