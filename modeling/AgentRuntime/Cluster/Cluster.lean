import AgentRuntime.Control.ControlSystem
import AgentRuntime.Service.WorkerService

/-!
# The control plane, its workers and the transport between them

`DispatchTask` sends a descriptor to the worker of a node, and once more when
the transport fails in a way that may have lost it. A request is delivered at
most once and at any time, or never. A client that waits for a reply gets it
once the worker has answered, or is told of a failure at any time. Reports,
heartbeats, registrations and the requests to cancel are taken as they come.
-/
namespace AgentRuntime

/-! ## DispatchTask -/

namespace NodeManager

def kMaxLaunchAttempts : Nat := 2

inductive TransportCode where
  | unavailable | deadlineExceeded
  /-- Any other code but OK. -/
  | other
  deriving DecidableEq

def TransportCode.retryable : TransportCode → Bool
  | .unavailable | .deadlineExceeded => true
  | .other => false

/-- The check before the first attempt. -/
def checkTimeout (timeout : Int) : Status :=
  if timeout ≤ 0 then .InvalidArgument "LaunchTask RPC timeout must be greater than zero" else .OK

/-- What `DispatchTask` returns after the failure of an attempt, unless it makes another. -/
def afterFailure (attempt : Nat) (code : TransportCode) (message : String) : Option Status :=
  if !code.retryable then some (.Unavailable ("LaunchTask RPC failed: " ++ message))
  else if attempt + 1 ≥ kMaxLaunchAttempts then
    some (.Unavailable ("LaunchTask RPC failed after transport redelivery: " ++ message))
  else none

end NodeManager

namespace ControlPlane

/-- In milliseconds. -/
def kLaunchRpcTimeout : Int := 2000

/-- Part 3 of `SubmitTask`, with the resources as the worker decodes them. -/
def descriptor (carried : ResourceSet → Except Status ResourceSet) (taskId : TaskID)
    (executionId : ExecutionID) (submission : SubmitTaskSpec) : TaskDescriptor where
  taskId := taskId.toProto
  executionId := executionId.toProto
  attempt := 1
  entrypoint := submission.entrypoint
  resources := carried submission.resources.resources
  payload := submission.payload
  payloadMediaType := submission.payloadMediaType
  tenantId := submission.tenantId.toProto
  agentId := submission.agentId.toProto
  name := submission.name

end ControlPlane

namespace Cluster

open ControlSystem (SubmitCall)

/-! ## The system -/

/-- A `LaunchTask` request. -/
structure Rpc where
  /-- The `SubmitTask` call whose `DispatchTask` sends it. -/
  taskId : TaskID
  endpoint : String
  task : TaskDescriptor
  delivered : Bool

/-- How far the `DispatchTask` of a call is. -/
inductive Dispatch where
  | waiting (attempt : Nat) (rpc : Nat)
  /-- Returned what the worker has answered. -/
  | answered
  /-- Returned after a failure of the transport. -/
  | gaveUp
  deriving DecidableEq

/-- What a worker process is started with. -/
structure WorkerConfig where
  registry : HandlerRegistry
  workerIds : List WorkerID
  resourcesPerWorker : ResourceSet
  resultReporter : Bool

def WorkerConfig.boot (config : WorkerConfig) : WorkerService.State :=
  .initial config.registry config.workerIds config.resourcesPerWorker config.resultReporter

structure State where
  control : ControlSystem.State
  /-- The worker process behind each endpoint, which is never restarted. -/
  workers : String → WorkerService.State
  rpcs : UnorderedMap Nat Rpc
  dispatches : UnorderedMap TaskID Dispatch
  /-- What `ExecutionID::Random` has drawn; it is modelled as never drawing an identity twice. -/
  drawn : List ExecutionID

def State.initial (config : String → WorkerConfig) : State where
  control := .initial
  workers endpoint := (config endpoint).boot
  rpcs := ∅
  dispatches := ∅
  drawn := []

def State.setWorker (s : State) (endpoint : String) (worker : WorkerService.State) : State :=
  { s with workers := fun e => if e = endpoint then worker else s.workers e }

/-- An attempt of `DispatchTask`. -/
def State.sendLaunch (s : State) (attempt n : Nat) (rpc : Rpc) : State :=
  { s with
    rpcs := s.rpcs.insert n rpc
    dispatches := s.dispatches.insert rpc.taskId (.waiting attempt n) }

/-- `DispatchTask` returns to `SubmitTask`. -/
def dispatchReturns (s : State) (t : TaskID) (outcome : Dispatch) (status : Status) :
    Option State :=
  (ControlSystem.step s.control (.submitDispatched t status)).map (fun control =>
    { s with control := control, dispatches := s.dispatches.insert t outcome })

/-- What the worker has answered to a request. -/
def answer? (worker : WorkerService.State) (n : Nat) : Option Status :=
  match worker.launches.lookup n with
  | some l => l.reply?
  | none => worker.undecoded.lookup n

inductive Action where
  /-- A step of the control plane, `DispatchTask` apart. -/
  | control (a : ControlSystem.Action)
  /-- The first attempt, as request `n`. -/
  | dispatch (t : TaskID) (n : Nat)
  /-- The request arrives. -/
  | deliver (n : Nat)
  /-- The reply to the last attempt arrives. -/
  | reply (t : TaskID)
  /-- The last attempt fails; another is made as request `n`, if one is made. -/
  | fail (t : TaskID) (code : NodeManager.TransportCode) (message : String) (n : Nat)
  /-- A step of a worker, requests to launch apart. -/
  | worker (endpoint : String) (a : WorkerService.Action)

variable (carried : ResourceSet → Except Status ResourceSet)

/-- A step of the control plane, where execution identities are drawn once. -/
def controlStep (s : State) (a : ControlSystem.Action) : Option State :=
  match a with
  | .submitDispatched _ _ => none
  | .submitReserve _ executionId _ _ =>
    if executionId ∈ s.drawn then none
    else (ControlSystem.step s.control a).map (fun control =>
      { s with control := control, drawn := executionId :: s.drawn })
  | _ => (ControlSystem.step s.control a).map (fun control => { s with control := control })

def workerStep (s : State) (endpoint : String) (a : WorkerService.Action) : Option State :=
  match a with
  | .launchBegin _ _ => none
  | _ => (WorkerService.step (s.workers endpoint) a).map (s.setWorker endpoint)

def dispatchBegin (s : State) (t : TaskID) (n : Nat) (call : SubmitCall) : Option State :=
  let checked := NodeManager.checkTimeout ControlPlane.kLaunchRpcTimeout
  if checked.ok then
    some (s.sendLaunch 0 n ⟨t, call.node.workerEndpoint,
      ControlPlane.descriptor carried t call.executionId call.submission, false⟩)
  else dispatchReturns s t .answered checked

def step (s : State) : Action → Option State
  | .control a => controlStep s a
  | .dispatch t n =>
    match s.control.phase t, s.dispatches.lookup t, s.rpcs.lookup n with
    | .published call, none, none => dispatchBegin carried s t n call
    | _, _, _ => none
  | .deliver n =>
    match s.rpcs.lookup n with
    | some rpc =>
      if rpc.delivered then none
      else (WorkerService.step (s.workers rpc.endpoint) (.launchBegin n rpc.task)).map
        (fun worker => { s.setWorker rpc.endpoint worker with
          rpcs := s.rpcs.insert n { rpc with delivered := true } })
    | none => none
  | .reply t =>
    match s.dispatches.lookup t with
    | some (.waiting _ n) =>
      match s.rpcs.lookup n with
      | some rpc =>
        match answer? (s.workers rpc.endpoint) n with
        | some status => dispatchReturns s t .answered status.fromProto
        | none => none
      | none => none
    | _ => none
  | .fail t code message n' =>
    match s.dispatches.lookup t with
    | some (.waiting attempt n) =>
      match NodeManager.afterFailure attempt code message with
      | some status => dispatchReturns s t .gaveUp status
      | none =>
        match s.rpcs.lookup n, s.rpcs.lookup n' with
        | some rpc, none => some (s.sendLaunch (attempt + 1) n' { rpc with delivered := false })
        | _, _ => none
    | _ => none
  | .worker endpoint a => workerStep s endpoint a

/-! ## What a run is observed to do -/

/-- What a worker is observed to do. -/
structure Event where
  endpoint : String
  event : WorkerService.Event
  deriving DecidableEq

def events (s : State) : Action → List Event
  | .worker endpoint a => (WorkerService.events (s.workers endpoint) a).map (Event.mk endpoint)
  | _ => []

def observedIn (as : List Action) (s : State) : List Event :=
  Run.observed (step carried) events as s

/-! ## A node with its worker, and calls for concrete runs -/

namespace Sample

def endpoint : String := "worker:1"

def config (_ : String) : WorkerConfig where
  registry := WorkerService.Sample.registry
  workerIds := [LocalSystem.Sample.workerId]
  resourcesPerWorker := LocalSystem.Sample.capacity
  resultReporter := true

/-- The node registers, its worker starts, and a task is submitted up to its first request. -/
def submit : List Action :=
  WorkerService.Sample.start.map (.worker endpoint) ++
    [.control (.registerNode (ControlSystem.Sample.node 1) 0),
      .control (ControlSystem.Sample.reserve 1),
      .control (.submitPublish (ControlSystem.Sample.task 1)),
      .dispatch (ControlSystem.Sample.task 1) 0]

/-- A request arrives and is accepted. -/
def accept (n : Nat) : List Action :=
  .deliver n :: .worker endpoint (.launchClaim n) ::
    (WorkerService.Sample.submit n none).map (.worker endpoint)

/-- An attempt of the call ends at its deadline. -/
def expire (n : Nat) : Action :=
  .fail (ControlSystem.Sample.task 1) .deadlineExceeded "Deadline Exceeded" n

/-- The rollback of `SubmitTask`. -/
def rollBack : List Action :=
  [.control (.submitErase (ControlSystem.Sample.task 1)),
    .control (.submitRelease (ControlSystem.Sample.task 1))]

end Sample

end Cluster

end AgentRuntime
