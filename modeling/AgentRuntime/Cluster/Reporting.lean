import AgentRuntime.Cluster.Deliveries
import AgentRuntime.Cluster.Outcome
import AgentRuntime.Control.Closing
import AgentRuntime.Service.Completions

/-!
# Reports between the workers and the control plane

The completion callback sends one `ReportTaskResult` request. The request may be
lost on its way, and the call may end at any time, with its reply, with a failure
or at its deadline. What `Report` returns is thrown away: no request is made a
second time.
-/
namespace AgentRuntime

namespace Cluster

open LocalSystem (Reporter completion?)

namespace Reporting

/-! ## The system -/

inductive Transit where
  | sent | handled | lost
  deriving DecidableEq

/-- A `ReportTaskResult` request. -/
structure ReportRpc where
  endpoint : String
  request : ReportTaskResultRequest
  transit : Transit

structure State where
  cluster : Cluster.State
  reports : UnorderedMap Nat ReportRpc

def State.initial (config : String → WorkerConfig) : State := ⟨.initial config, ∅⟩

def State.control (s : State) : ControlSystem.State := s.cluster.control
def State.worker (s : State) (endpoint : String) : WorkerService.State :=
  s.cluster.workers endpoint

def State.setReport (s : State) (n : Nat) (rpc : ReportRpc) : State :=
  { s with reports := s.reports.insert n rpc }

/-- The section that a request leads to at the control plane. -/
def call (request : ReportTaskResultRequest) : Except Status ControlSystem.Action := do
  let (taskId, executionId) ← decodeReport request
  return .report taskId executionId request.terminalState.fromProto request.status.fromProto
    request.result request.resultMediaType

inductive Action where
  /-- A step in which no report is sent or handled. -/
  | cluster (a : Cluster.Action)
  /-- The callback of a thread sends its report, as request `n`. -/
  | send (endpoint : String) (r : Reporter) (n : Nat)
  | handle (n : Nat)
  /-- The request is lost before it is handled. -/
  | lose (n : Nat)

/-- The workers are the only ones to report, and the callback only sends. -/
def isReport : Cluster.Action → Bool
  | .control (.report _ _ _ _ _ _) | .worker _ (.callback _) => true
  | _ => false

variable (carried : ResourceSet → Except Status ResourceSet)

def handle (s : State) (n : Nat) (rpc : ReportRpc) : Option State :=
  match call rpc.request with
  | .error _ => some (s.setReport n { rpc with transit := .handled })
  | .ok a => (Cluster.step carried s.cluster (.control a)).map (fun cluster =>
      { s with cluster := cluster }.setReport n { rpc with transit := .handled })

def step (s : State) : Action → Option State
  | .cluster a =>
    if isReport a then none
    else (Cluster.step carried s.cluster a).map (fun cluster => { s with cluster := cluster })
  | .send endpoint r n =>
    match completion? (s.worker endpoint).runtime r, s.reports.lookup n with
    | some completion, none =>
      (Cluster.step carried s.cluster (.worker endpoint (.callback r))).map (fun cluster =>
        match (s.worker endpoint).reportOf completion with
        | some request => { s with cluster := cluster }.setReport n ⟨endpoint, request, .sent⟩
        | none => { s with cluster := cluster })
    | _, _ => none
  | .handle n =>
    match s.reports.lookup n with
    | some rpc => if rpc.transit = .sent then handle carried s n rpc else none
    | none => none
  | .lose n =>
    match s.reports.lookup n with
    | some rpc =>
      if rpc.transit = .sent then some (s.setReport n { rpc with transit := .lost }) else none
    | none => none

/-- What the workers are observed to do. -/
def events (s : State) : Action → List Event
  | .cluster a => Cluster.events s.cluster a
  | .send endpoint r _ => Cluster.events s.cluster (.worker endpoint (.callback r))
  | .handle _ | .lose _ => []

/-- The tasks whose reservation a step gives back. -/
def releases (s : State) : Action → List TaskID
  | .cluster (.control a) => ControlSystem.givenBack s.control a
  | .handle n =>
    match (s.reports.lookup n).map (fun rpc => call rpc.request) with
    | some (.ok a) => ControlSystem.givenBack s.control a
    | _ => []
  | _ => []

def releasedIn (as : List Action) (s : State) : List TaskID :=
  Run.observed (step carried) releases as s

/-! ## What each step does -/

/-- The handler of the system is that of the service. -/
theorem handle_plane {s u : State} {n : Nat} {rpc : ReportRpc}
    (h : handle carried s n rpc = some u) :
    u.control.plane = (ControlService.reportTaskResult s.control.plane rpc.request).2 := by
  simp only [handle, call] at h
  simp only [ControlService.reportTaskResult]
  cases hdecode : decodeReport rpc.request with
  | error status =>
    rw [hdecode] at h
    cases h
    rfl
  | ok ids =>
    obtain ⟨t, e⟩ := ids
    rw [hdecode] at h
    obtain ⟨cluster, hstep, rfl⟩ := Option.map_eq_some_iff.mp h
    obtain ⟨control, hreport, rfl⟩ := Option.map_eq_some_iff.mp hstep
    simp only [ControlSystem.step] at hreport
    split at hreport
    · cases hreport
      rfl
    · cases hreport

theorem call_of_decode {request : ReportTaskResultRequest} {t : TaskID} {e : ExecutionID}
    (h : decodeReport request = .ok (t, e)) :
    call request = .ok (.report t e request.terminalState.fromProto request.status.fromProto
      request.result request.resultMediaType) := by
  rw [call, h]
  rfl

/-- What a step does to the cluster and to the requests. -/
inductive Effect (s : State) : Action → State → Prop where
  | cluster {a cluster} (hno : isReport a = false)
      (hstep : Cluster.step carried s.cluster a = some cluster) :
      Effect s (.cluster a) { s with cluster := cluster }
  | send {endpoint r n completion e cluster}
      (hcompletion : completion? (s.worker endpoint).runtime r = some completion)
      (hentry : (s.worker endpoint).taskExecutions.lookup completion.taskId = some e)
      (hnew : s.reports.lookup n = none)
      (hstep : Cluster.step carried s.cluster (.worker endpoint (.callback r)) = some cluster) :
      Effect s (.send endpoint r n) ({ s with cluster := cluster }.setReport n
        ⟨endpoint, ResultReporter.request completion e, .sent⟩)
  | unsent {endpoint r n completion cluster}
      (hcompletion : completion? (s.worker endpoint).runtime r = some completion)
      (hentry : (s.worker endpoint).taskExecutions.lookup completion.taskId = none)
      (hstep : Cluster.step carried s.cluster (.worker endpoint (.callback r)) = some cluster) :
      Effect s (.send endpoint r n) { s with cluster := cluster }
  | reject {n rpc status} (hrpc : s.reports.lookup n = some rpc) (hsent : rpc.transit = .sent)
      (hcall : call rpc.request = .error status) :
      Effect s (.handle n) (s.setReport n { rpc with transit := .handled })
  | handle {n rpc a cluster} (hrpc : s.reports.lookup n = some rpc) (hsent : rpc.transit = .sent)
      (hcall : call rpc.request = .ok a)
      (hstep : Cluster.step carried s.cluster (.control a) = some cluster) :
      Effect s (.handle n)
        ({ s with cluster := cluster }.setReport n { rpc with transit := .handled })
  | lose {n rpc} (hrpc : s.reports.lookup n = some rpc) (hsent : rpc.transit = .sent) :
      Effect s (.lose n) (s.setReport n { rpc with transit := .lost })

variable {carried} {s u : State} {a : Action}

theorem effect (h : step carried s a = some u) : Effect carried s a u := by
  cases a with
  | cluster a =>
    simp only [step] at h
    split at h
    · cases h
    · rename_i hno
      obtain ⟨cluster, hstep, rfl⟩ := Option.map_eq_some_iff.mp h
      exact .cluster (by simpa using hno) hstep
  | send endpoint r n =>
    simp only [step] at h
    split at h
    · rename_i completion hcompletion hnew
      obtain ⟨cluster, hstep, rfl⟩ := Option.map_eq_some_iff.mp h
      simp only [WorkerService.State.reportOf]
      cases hentry : (s.worker endpoint).taskExecutions.lookup completion.taskId with
      | some e => exact .send hcompletion hentry hnew hstep
      | none => exact .unsent hcompletion hentry hstep
    · cases h
  | handle n =>
    simp only [step] at h
    split at h
    · rename_i rpc hrpc
      split at h
      · rename_i hsent
        simp only [Reporting.handle] at h
        cases hcall : call rpc.request with
        | error status =>
          rw [hcall] at h
          cases h
          exact .reject hrpc hsent hcall
        | ok a =>
          rw [hcall] at h
          obtain ⟨cluster, hstep, rfl⟩ := Option.map_eq_some_iff.mp h
          exact .handle hrpc hsent hcall hstep
      · cases h
    · cases h
  | lose n =>
    simp only [step] at h
    split at h
    · rename_i rpc hrpc
      split at h
      · rename_i hsent
        cases h
        exact .lose hrpc hsent
      · cases h
    · cases h

/-- A step of the system is a step of the cluster, or does not concern it. -/
theorem step_cluster (h : Effect carried s a u) :
    u.cluster = s.cluster ∧ events s a = [] ∨
    ∃ b, Cluster.step carried s.cluster b = some u.cluster ∧
      Cluster.events s.cluster b = events s a := by
  cases h with
  | cluster _ hstep | send _ _ _ hstep | unsent _ _ hstep | handle _ _ _ hstep =>
    exact .inr ⟨_, hstep, rfl⟩
  | reject | lose => exact .inl ⟨rfl, rfl⟩

end Reporting

end Cluster

end AgentRuntime
