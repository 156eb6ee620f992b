import AgentRuntime.Local.TaskHistory
import AgentRuntime.Serialization.Wire

/-!
# The worker service over the local runtime

Any number of `LaunchTask` and `CancelTask` requests are handled concurrently,
on top of a runtime whose completion callback reports the results. A section
under `executions_mu_` is one step, except that the callback keeps the mutex
while it waits for the answer of its report.
-/
namespace AgentRuntime

namespace WorkerService

open LocalSystem (Reporter completion? leaves)

structure ExecutionAdmission where
  taskId : TaskID
  admissionStatus : Status
  deriving DecidableEq

/-- How far a `LaunchTask` request is that could be decoded. -/
inductive LaunchPhase where
  | claiming
  /-- The execution is claimed and `Submit` is next. -/
  | claimed
  | submitting
  /-- Answered: the execution belongs to another task. -/
  | rejected (status : Status)
  /-- Answered from the ledger. -/
  | replayed (status : Status)
  /-- Answered with the status of its own submission. -/
  | answered (status : Status)
  deriving DecidableEq

structure Launch where
  executionId : ExecutionID
  spec : TaskSpec
  handler : TaskHandler
  phase : LaunchPhase
  deriving DecidableEq

namespace Launch

/-- The request has claimed its execution, and it is the one that submits it. -/
def isClaimer (l : Launch) : Bool :=
  match l.phase with
  | .claimed | .submitting | .answered _ => true
  | .claiming | .rejected _ | .replayed _ => false

def reply? (l : Launch) : Option Status :=
  match l.phase with
  | .rejected status | .replayed status | .answered status => some status
  | .claiming | .claimed | .submitting => none

end Launch

/-- How far a `CancelTask` request is. -/
inductive CancelPhase where
  | checking (t : TaskID) (e : ExecutionID)
  | approved (t : TaskID)
  | cancelling (t : TaskID)
  | replied (status : Status)
  deriving DecidableEq

structure State where
  runtime : LocalSystem.State
  registry : HandlerRegistry
  executions : UnorderedMap ExecutionID ExecutionAdmission
  taskExecutions : UnorderedMap TaskID ExecutionID
  /-- The owner of `executions_mu_`, waiting for the answer of its report. -/
  reporting : Option Reporter
  /-- The threads inside the callback that have read `task_executions_`. -/
  called : List Reporter
  launches : UnorderedMap Nat Launch
  /-- The answers to `LaunchTask` requests that could not be decoded. -/
  undecoded : UnorderedMap Nat Status
  cancels : UnorderedMap Nat CancelPhase

def State.initial (registry : HandlerRegistry) (workerIds : List WorkerID)
    (resourcesPerWorker : ResourceSet) (resultReporter : Bool) : State where
  runtime := .initial workerIds resourcesPerWorker resultReporter
  registry := registry
  executions := ∅
  taskExecutions := ∅
  reporting := none
  called := []
  launches := ∅
  undecoded := ∅
  cancels := ∅

def State.setLaunch (s : State) (n : Nat) (l : Launch) : State :=
  { s with launches := s.launches.insert n l }
def State.setCancel (s : State) (n : Nat) (phase : CancelPhase) : State :=
  { s with cancels := s.cancels.insert n phase }

@[simp] theorem lookup_setLaunch (s : State) (n m : Nat) (l : Launch) :
    (s.setLaunch n l).launches.lookup m = if m = n then some l else s.launches.lookup m :=
  UnorderedMap.lookup_insert_eq s.launches n m l

/-! ## The requests -/

def launchBegin (s : State) (n : Nat) (task : TaskDescriptor) : State :=
  match decodeLaunch s.registry task with
  | .error status => { s with undecoded := s.undecoded.insert n status }
  | .ok (executionId, spec, handler) => s.setLaunch n ⟨executionId, spec, handler, .claiming⟩

def otherTask : Status :=
  .FailedPrecondition "Execution is already associated with a different task"

/-- The first section of part 6. -/
def launchClaim (s : State) (n : Nat) (l : Launch) : State :=
  match s.executions.lookup l.executionId with
  | some existing =>
    if existing.taskId ≠ l.spec.id then s.setLaunch n { l with phase := .rejected otherTask }
    else s.setLaunch n { l with phase := .replayed existing.admissionStatus }
  | none =>
    { s with
      executions := s.executions.emplace l.executionId ⟨l.spec.id, .OK⟩
      taskExecutions := s.taskExecutions.insert l.spec.id l.executionId }.setLaunch n
        { l with phase := .claimed }

/-- Part 8, and the reply. -/
def launchStore (s : State) (n : Nat) (l : Launch) (status : Status) : State :=
  match s.executions.lookup l.executionId with
  | some existing =>
    { s with
      executions :=
        s.executions.insert l.executionId { existing with admissionStatus := status } }.setLaunch n
          { l with phase := .answered status }
  | none => s.setLaunch n { l with phase := .answered status }

def cancelDecoded (taskId executionId : ByteString) : CancelPhase :=
  match (StrongID.fromProto taskId : Except Status TaskID) with
  | .error status => .replied status
  | .ok t =>
    match (StrongID.fromProto executionId : Except Status ExecutionID) with
    | .error status => .replied status
    | .ok e => .checking t e

/-- The section of `CancelTask`. -/
def cancelChecked (s : State) (t : TaskID) (e : ExecutionID) : CancelPhase :=
  match s.executions.lookup e with
  | none => .replied (.NotFound "distributed execution is not known by worker")
  | some existing =>
    if existing.taskId ≠ t then
      .replied (.FailedPrecondition "execution is associated with a different task")
    else if !existing.admissionStatus.ok then
      .replied (.FailedPrecondition "execution was not admitted by local runtime")
    else .approved t

/-! ## The system -/

inductive Action where
  | launchBegin (n : Nat) (task : TaskDescriptor)
  | launchClaim (n : Nat)
  | launchSubmit (n : Nat)
  | launchStore (n : Nat)
  | cancelBegin (n : Nat) (taskId executionId : ByteString)
  | cancelCheck (n : Nat)
  | cancelRuntime (n : Nat)
  | cancelReply (n : Nat)
  /-- The callback reads `task_executions_` and sends the report, if there is an entry. -/
  | callback (r : Reporter)
  /-- The report is answered or given up. -/
  | callbackReturn (r : Reporter)
  /-- A step of the runtime itself. -/
  | runtime (a : LocalSystem.Action)

/-- The calls of `Submit` and `Cancel` are made by the requests. -/
def isRequestCall : LocalSystem.Action → Bool
  | .call (.submitBegin _ _ _) | .call (.cancelBegin _ _) => true
  | _ => false

def runtimeStep (s : State) (a : LocalSystem.Action) : Option State :=
  if isRequestCall a then none
  else
    match leaves s.runtime a with
    | none => (LocalSystem.step s.runtime a).map (fun runtime => { s with runtime := runtime })
    | some r =>
      if r ∈ s.called ∧ s.reporting ≠ some r then
        (LocalSystem.step s.runtime a).map (fun runtime =>
          { s with runtime := runtime, called := s.called.filter (fun r' => r' ≠ r) })
      else none

def callback (s : State) (r : Reporter) (completion : TaskCompletion) : State :=
  match s.taskExecutions.lookup completion.taskId with
  | none => { s with called := r :: s.called }
  | some _ => { s with called := r :: s.called, reporting := some r }

def step (s : State) : Action → Option State
  | .launchBegin n task =>
    match s.launches.lookup n, s.undecoded.lookup n with
    | none, none => some (launchBegin s n task)
    | _, _ => none
  | .launchClaim n =>
    match s.launches.lookup n, s.reporting with
    | some l, none => if l.phase = .claiming then some (launchClaim s n l) else none
    | _, _ => none
  | .launchSubmit n =>
    match s.launches.lookup n with
    | some l =>
      if l.phase = .claimed then
        (LocalSystem.step s.runtime (.call (.submitBegin n l.spec l.handler))).map
          (fun runtime => { s with runtime := runtime }.setLaunch n { l with phase := .submitting })
      else none
    | none => none
  | .launchStore n =>
    match s.launches.lookup n, s.runtime.submits.lookup n, s.reporting with
    | some l, some status, none =>
      if l.phase = .submitting then some (launchStore s n l status) else none
    | _, _, _ => none
  | .cancelBegin n taskId executionId =>
    match s.cancels.lookup n with
    | none => some (s.setCancel n (cancelDecoded taskId executionId))
    | some _ => none
  | .cancelCheck n =>
    match s.cancels.lookup n, s.reporting with
    | some (.checking t e), none => some (s.setCancel n (cancelChecked s t e))
    | _, _ => none
  | .cancelRuntime n =>
    match s.cancels.lookup n with
    | some (.approved t) =>
      (LocalSystem.step s.runtime (.call (.cancelBegin n t))).map
        (fun runtime => { s with runtime := runtime }.setCancel n (.cancelling t))
    | _ => none
  | .cancelReply n =>
    match s.cancels.lookup n, s.runtime.cancels.lookup n with
    | some (.cancelling _), some status => some (s.setCancel n (.replied status))
    | _, _ => none
  | .callback r =>
    match completion? s.runtime r, s.reporting with
    | some completion, none => if r ∈ s.called then none else some (callback s r completion)
    | _, _ => none
  | .callbackReturn r => if s.reporting = some r then some { s with reporting := none } else none
  | .runtime a => runtimeStep s a

/-! ## What a run is observed to do -/

inductive Event where
  /-- `Runtime::Submit` is called for the execution. -/
  | submitted (e : ExecutionID)
  /-- The result of the task is reported under the execution. -/
  | reported (t : TaskID) (e : ExecutionID)
  | runtime (ev : LocalSystem.Event)
  deriving DecidableEq

def events (s : State) : Action → List Event
  | .launchSubmit n =>
    match s.launches.lookup n with
    | some l => [.submitted l.executionId]
    | none => []
  | .callback r =>
    match completion? s.runtime r with
    | some completion =>
      match s.taskExecutions.lookup completion.taskId with
      | some e => [.reported completion.taskId e]
      | none => []
    | none => []
  | .runtime a => (LocalSystem.events s.runtime a).map .runtime
  | _ => []

/-- An event of the runtime. -/
def Event.runtime? : Event → Option LocalSystem.Event
  | .runtime ev => some ev
  | .submitted _ | .reported _ _ => none

/-- What a run is observed to do. -/
def observedIn (as : List Action) (s : State) : List Event := Run.observed step events as s

/-! ## A worker and requests for concrete runs -/

namespace Sample

def registry : HandlerRegistry := ⟨["main"]⟩

def descriptor (t e : UInt8) : TaskDescriptor where
  taskId := (LocalSystem.Sample.task t).bytes
  executionId := (StrongID.ofByte e : ExecutionID).bytes
  attempt := 1
  entrypoint := "main"
  resources := .ok (AgentRuntime.Sample.cpu AgentRuntime.Sample.oneCpu)
  payload := []
  payloadMediaType := ""
  tenantId := (StrongID.ofByte 1 : TenantID).bytes
  agentId := (StrongID.ofByte 1 : AgentID).bytes
  name := "task"

def worker : State :=
  .initial registry [LocalSystem.Sample.workerId] LocalSystem.Sample.capacity true

def start : List Action := LocalSystem.Sample.start.map .runtime

/-- A request from its arrival to its claim. -/
def claim (n : Nat) (t e : UInt8) : List Action := [.launchBegin n (descriptor t e), .launchClaim n]

/-- The submission of a request that is accepted, and its reply. -/
def submit (n : Nat) (woken : Option LocalSystem.Waiter) : List Action :=
  [.launchSubmit n, .runtime (.call .submitRegister), .runtime (.call .enqueueBegin),
    .runtime (.call .enqueueMark), .runtime (.call (.enqueuePush woken)), .launchStore n]

end Sample

end WorkerService

end AgentRuntime
