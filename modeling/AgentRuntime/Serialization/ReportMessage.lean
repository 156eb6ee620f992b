import AgentRuntime.Control.ControlPlane
import AgentRuntime.Runtime.TaskManager
import AgentRuntime.Serialization.Wire

/-!
# The report of a result

A completion passes three enumerations of states and two switches over status
codes on its way from the worker to the control plane. The enumerations of the
wire are open: a peer can send a number that has no name.
-/
namespace AgentRuntime

/-! ## Statuses -/

inductive WireStatusCode where
  | unspecified | ok | invalidArgument | notFound | alreadyExists | failedPrecondition
  | unavailable | resourceExhausted | cancelled | deadlineExceeded | internal
  | unknown (value : Int)
  deriving DecidableEq

structure WireStatus where
  code : WireStatusCode
  message : String
  deriving DecidableEq

/-- `StatusCodeToProto`. -/
def StatusCode.toProto : StatusCode → WireStatusCode
  | .ok => .ok
  | .invalidArgument => .invalidArgument
  | .notFound => .notFound
  | .alreadyExists => .alreadyExists
  | .failedPrecondition => .failedPrecondition
  | .unavailable => .unavailable
  | .resourceExhausted => .resourceExhausted
  | .cancelled => .cancelled
  | .deadlineExceeded => .deadlineExceeded
  | .internal => .internal

def Status.toProto (status : Status) : WireStatus := ⟨status.code.toProto, status.message⟩

/-- `FromProtoStatus`. -/
def WireStatus.fromProto (wire : WireStatus) : Status :=
  match wire.code with
  | .ok => .OK
  | .invalidArgument => .InvalidArgument wire.message
  | .notFound => .NotFound wire.message
  | .alreadyExists => .AlreadyExists wire.message
  | .failedPrecondition => .FailedPrecondition wire.message
  | .unavailable => .Unavailable wire.message
  | .resourceExhausted => .ResourceExhausted wire.message
  | .cancelled => .Cancelled wire.message
  | .deadlineExceeded => .DeadlineExceeded wire.message
  | .internal => .Internal wire.message
  | .unspecified => .Internal "received unspecified runtime status code"
  | .unknown _ => .Internal "received unknown runtime status code"

/-- The message of an OK is dropped on arrival, but there is none. -/
@[simp] theorem WireStatus.fromProto_toProto (status : Status) :
    status.toProto.fromProto = status := by
  obtain ⟨code, message, hplain⟩ := status
  cases code with
  | ok =>
    obtain rfl := hplain rfl
    rfl
  | invalidArgument | notFound | alreadyExists | failedPrecondition | unavailable
  | resourceExhausted | cancelled | deadlineExceeded | internal => rfl

/-- A status that stands for its message is decoded as that message is. -/
theorem Status.fromProto_eq (status : Status) : status.fromProto = status.toProto.fromProto := by
  rw [WireStatus.fromProto_toProto, Status.fromProto]
  split
  · rename_i hok
    exact (Status.eq_OK hok).symm
  · rfl

/-! ## States -/

inductive WireTaskState where
  | unspecified | queued | scheduled | running | cancelRequested | succeeded | failed | cancelled
  | unknown (value : Int)
  deriving DecidableEq

/-- `ToProtoTaskState` of the reporter. -/
def ExecutionState.toProto : ExecutionState → WireTaskState
  | .succeeded => .succeeded
  | .failed => .failed
  | .cancelled => .cancelled
  | .pending | .queued | .scheduled | .running => .unspecified

/-- `FromProtoTaskState` of the control service. -/
def WireTaskState.fromProto : WireTaskState → DistributedTaskState
  | .succeeded => .succeeded
  | .failed => .failed
  | .cancelled => .canceled
  | .unspecified | .queued | .scheduled | .running | .cancelRequested | .unknown _ => .running

/-- A state is reported as terminal when it is. -/
@[simp] theorem isTerminal_fromProto (state : ExecutionState) :
    isTerminal state.toProto.fromProto = state.isTerminal := by
  cases state <;> rfl

/-! ## The message -/

structure ReportTaskResultRequest where
  taskId : ByteString
  executionId : ByteString
  terminalState : WireTaskState
  status : WireStatus
  result : ByteString
  resultMediaType : String
  deriving DecidableEq

namespace ResultReporter

def kResultMediaType : String := "text/plain"

/-- What `Report` sends for a completion. -/
def request (completion : TaskCompletion) (executionId : ExecutionID) :
    ReportTaskResultRequest where
  taskId := completion.taskId.toProto
  executionId := executionId.toProto
  terminalState := completion.state.toProto
  status := completion.status.toProto
  result := completion.result
  resultMediaType := kResultMediaType

end ResultReporter

/-- The part of the handler that can refuse the message. -/
def decodeReport (request : ReportTaskResultRequest) : Except Status (TaskID × ExecutionID) := do
  let taskId : TaskID ← StrongID.fromProto request.taskId
  let executionId : ExecutionID ← StrongID.fromProto request.executionId
  return (taskId, executionId)

@[simp] theorem decodeReport_request (completion : TaskCompletion) (executionId : ExecutionID) :
    decodeReport (ResultReporter.request completion executionId) =
      .ok (completion.taskId, executionId) := by
  simp only [decodeReport, ResultReporter.request, StrongID.fromProto_toProto]
  rfl

namespace ControlService

/-- `ControlServiceImpl::ReportTaskResult`. -/
def reportTaskResult (cp : ControlPlane) (request : ReportTaskResultRequest) :
    WireStatus × ControlPlane :=
  match decodeReport request with
  | .error status => (status.toProto, cp)
  | .ok (taskId, executionId) =>
    let done := cp.reportTaskResult taskId executionId request.terminalState.fromProto
      request.status.fromProto request.result request.resultMediaType
    (done.1.toProto, done.2)

/-- A report arrives as the call that its completion stands for. -/
theorem reportTaskResult_request (cp : ControlPlane) (completion : TaskCompletion)
    (executionId : ExecutionID) :
    reportTaskResult cp (ResultReporter.request completion executionId) =
      let done := cp.reportTaskResult completion.taskId executionId
        completion.state.toProto.fromProto completion.status completion.result
        ResultReporter.kResultMediaType
      (done.1.toProto, done.2) := by
  simp only [reportTaskResult, decodeReport_request]
  simp only [ResultReporter.request, WireStatus.fromProto_toProto]

end ControlService

end AgentRuntime
