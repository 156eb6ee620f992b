import AgentRuntime.Common.Id
import AgentRuntime.Core.Resource

/-!
# Tasks, their handlers and what an execution produces

The code bound to a task is a `std::function`. Of a callable only what it was
bound to is kept; what it does when it is called is left to the environment.
-/
namespace AgentRuntime

structure ObjectRef where
  id : ObjectID
  deriving DecidableEq

def ObjectRef.validate (ref : ObjectRef) : Status :=
  if ref.id.isNil then .InvalidArgument "object reference id cannot be nil" else .OK

structure TaskSpec where
  tenantId : TenantID
  id : TaskID
  agentId : AgentID
  name : String
  resources : ResourceRequest
  inputs : List ObjectRef
  deriving DecidableEq

namespace TaskSpec

/-- The loop over the inputs, which stops at the first invalid one. -/
def validateInputs : List ObjectRef → Status
  | [] => .OK
  | input :: rest => if input.validate.ok then validateInputs rest else input.validate

def validate (spec : TaskSpec) : Status :=
  if spec.tenantId.isNil then .InvalidArgument "task tenant_id cannot be nil"
  else if spec.id.isNil then .InvalidArgument "task id cannot be nil"
  else if spec.agentId.isNil then .InvalidArgument "task agent_id cannot be nil"
  else if spec.name.isEmpty then .InvalidArgument "task name cannot be empty"
  else validateInputs spec.inputs

end TaskSpec

/-- What a callable was bound to when it was made. -/
structure BoundHandler where
  entrypoint : String
  payload : ByteString
  payloadMediaType : String
  deriving DecidableEq

/-- A `std::function`; `none` is the empty one. -/
abbrev TaskHandler := Option BoundHandler

/-- How a call of a handler ends. -/
inductive HandlerExit where
  | returned (status : Status) (result : ByteString)
  /-- A `std::exception` with this `what()`. -/
  | threw (what : String)
  | threwUnknown
  deriving DecidableEq

structure ExecutionOutcome where
  status : Status
  result : ByteString
  deriving DecidableEq

namespace Executor

/-- `Execute` of a handler that is not empty, once the call of it has ended. -/
def outcome : HandlerExit → ExecutionOutcome
  | .returned status result => ⟨status, result⟩
  | .threw what => ⟨.Internal ("task handler throw exception: " ++ what), []⟩
  | .threwUnknown => ⟨.Internal "task handler threw unknow exception", []⟩

/-- `Execute` of an empty handler: nothing is called. -/
def emptyHandler : ExecutionOutcome := ⟨.Internal "executor received an empty task handler", []⟩

end Executor

end AgentRuntime
