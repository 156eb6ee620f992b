import AgentRuntime.Control.ControlPlane
import AgentRuntime.Library.Run

/-!
# The control plane as a system of calls

Any number of `SubmitTask` and `CancelTask` calls, reports, registry calls and
one `HandleNodeDead` at a time interleave, one section under a mutex per step.
A label names the call and carries what the environment decides: the drawn
identities, the outcome of an RPC, the time of a scan and the order in which
the hash table is iterated.

A `SubmitTask` call is named by the TaskID it draws; `TaskID::Random` is
modelled as never drawing an identity twice. `HandleNodeDead` holds `tasks_mu_`
over its whole loop while it takes the registry's mutex once per record, so the
loop is one step per entry and every other section of `tasks_mu_` waits.
-/
namespace AgentRuntime

namespace ControlSystem

/-- The locals of a `SubmitTask` call once a node has been reserved. -/
structure SubmitCall where
  executionId : ExecutionID
  submission : SubmitTaskSpec
  node : NodeRecord

inductive SubmitPhase where
  /-- No call has drawn this TaskID. -/
  | unused
  /-- Returned before anything was reserved. -/
  | refused (status : Status)
  | reserved (call : SubmitCall)
  /-- The record is in the table and the LaunchTask RPC is under way. -/
  | published (call : SubmitCall)
  /-- `DispatchTask` returned this status; the rollback has not begun. -/
  | undelivered (call : SubmitCall) (status : Status)
  | erased (call : SubmitCall) (status : Status)
  /-- Returned this status after the rollback. -/
  | rolledBack (call : SubmitCall) (status : Status)
  /-- Returned OK. -/
  | accepted (call : SubmitCall)

namespace SubmitPhase

/-- The call of a phase in which a reservation has been made. -/
def call? : SubmitPhase → Option SubmitCall
  | .unused | .refused _ => none
  | .reserved call | .published call | .undelivered call _ | .erased call _
  | .rolledBack call _ | .accepted call => some call

/-- The call has not been made or has returned. -/
def settled : SubmitPhase → Bool
  | .unused | .refused _ | .rolledBack _ _ | .accepted _ => true
  | .reserved _ | .published _ | .undelivered _ _ | .erased _ _ => false

end SubmitPhase

inductive CancelPhase where
  | idle
  | snapshot (taskId : TaskID) (record : DistributedTaskRecord)
  | located (taskId : TaskID) (record : DistributedTaskRecord) (node : NodeRecord)
  /-- The worker accepted the cancellation. -/
  | delivered (taskId : TaskID) (record : DistributedTaskRecord)
  | returned (status : Status)

def CancelPhase.settled : CancelPhase → Bool
  | .idle | .returned _ => true
  | .snapshot _ _ | .located _ _ _ | .delivered _ _ => false

/-- A `HandleNodeDead` call inside its loop, with the entries it has yet to visit. -/
structure DeadCall where
  nodeId : NodeID
  incarnation : Nat
  remaining : List TaskID

structure State where
  plane : ControlPlane
  /-- The `HandleNodeDead` call that holds `tasks_mu_`. -/
  handling : Option DeadCall
  submits : UnorderedMap TaskID SubmitPhase
  cancels : UnorderedMap Nat CancelPhase
  /-- Lifetimes returned by `UpdateLiveness` that were not yet passed to `HandleNodeDead`. -/
  announced : List DeadNodeLifetime

inductive Action where
  | registerNode (node : NodeRecord) (now : Int)
  | heartbeat (nodeId : NodeID) (incarnation : Nat) (reportedAvailable : ResourceSet)
      (runningTasks : Nat) (now : Int)
  | updateLiveness (now suspectTimeout deadTimeout : Int)
  | removeNode (nodeId : NodeID) (incarnation : Nat)
  | submitReserve (t : TaskID) (executionId : ExecutionID) (hasOut : Bool)
      (submission : SubmitTaskSpec)
  | submitPublish (t : TaskID)
  | submitDispatched (t : TaskID) (status : Status)
  | submitErase (t : TaskID)
  | submitRelease (t : TaskID)
  | cancelSnapshot (k : Nat) (t : TaskID)
  | cancelLocate (k : Nat)
  | cancelDelivered (k : Nat) (status : Status)
  | cancelPublish (k : Nat)
  | report (t : TaskID) (executionId : ExecutionID) (state : DistributedTaskState)
      (terminalStatus : Status) (result : ByteString) (resultMediaType : String)
  | deadBegin (nodeId : NodeID) (incarnation : Nat) (order : List TaskID)
  | deadNext

namespace State

def initial : State where
  plane := .empty
  handling := none
  submits := ∅
  cancels := ∅
  announced := []

def phase (s : State) (t : TaskID) : SubmitPhase := (s.submits.lookup t).getD .unused
def cancelPhase (s : State) (k : Nat) : CancelPhase := (s.cancels.lookup k).getD .idle
def registry (s : State) : NodeRegistry := s.plane.registry
def record (s : State) (t : TaskID) : Option DistributedTaskRecord := s.plane.tasks.lookup t

def setRegistry (s : State) (registry : NodeRegistry) : State :=
  { s with plane := { s.plane with registry := registry } }
def setPlane (s : State) (plane : ControlPlane) : State := { s with plane := plane }
def setSubmit (s : State) (t : TaskID) (phase : SubmitPhase) : State :=
  { s with submits := s.submits.insert t phase }
def setCancel (s : State) (k : Nat) (phase : CancelPhase) : State :=
  { s with cancels := s.cancels.insert k phase }

@[simp] theorem setRegistry_registry (s : State) (reg : NodeRegistry) :
    (s.setRegistry reg).registry = reg := rfl
@[simp] theorem setRegistry_record (s : State) (reg : NodeRegistry) :
    (s.setRegistry reg).record = s.record := rfl
@[simp] theorem setRegistry_handling (s : State) (reg : NodeRegistry) :
    (s.setRegistry reg).handling = s.handling := rfl
@[simp] theorem setRegistry_phase (s : State) (reg : NodeRegistry) :
    (s.setRegistry reg).phase = s.phase := rfl
@[simp] theorem setRegistry_announced (s : State) (reg : NodeRegistry) :
    (s.setRegistry reg).announced = s.announced := rfl
@[simp] theorem setPlane_registry (s : State) (cp : ControlPlane) :
    (s.setPlane cp).registry = cp.registry := rfl
@[simp] theorem setPlane_record (s : State) (cp : ControlPlane) (t : TaskID) :
    (s.setPlane cp).record t = cp.tasks.lookup t := rfl
@[simp] theorem setPlane_handling (s : State) (cp : ControlPlane) :
    (s.setPlane cp).handling = s.handling := rfl
@[simp] theorem setPlane_phase (s : State) (cp : ControlPlane) :
    (s.setPlane cp).phase = s.phase := rfl
@[simp] theorem setPlane_announced (s : State) (cp : ControlPlane) :
    (s.setPlane cp).announced = s.announced := rfl
@[simp] theorem setSubmit_registry (s : State) (t : TaskID) (phase : SubmitPhase) :
    (s.setSubmit t phase).registry = s.registry := rfl
@[simp] theorem setSubmit_record (s : State) (t : TaskID) (phase : SubmitPhase) :
    (s.setSubmit t phase).record = s.record := rfl
@[simp] theorem setSubmit_handling (s : State) (t : TaskID) (phase : SubmitPhase) :
    (s.setSubmit t phase).handling = s.handling := rfl
@[simp] theorem setSubmit_announced (s : State) (t : TaskID) (phase : SubmitPhase) :
    (s.setSubmit t phase).announced = s.announced := rfl
@[simp] theorem setCancel_registry (s : State) (k : Nat) (phase : CancelPhase) :
    (s.setCancel k phase).registry = s.registry := rfl
@[simp] theorem setCancel_record (s : State) (k : Nat) (phase : CancelPhase) :
    (s.setCancel k phase).record = s.record := rfl
@[simp] theorem setCancel_handling (s : State) (k : Nat) (phase : CancelPhase) :
    (s.setCancel k phase).handling = s.handling := rfl
@[simp] theorem setCancel_phase (s : State) (k : Nat) (phase : CancelPhase) :
    (s.setCancel k phase).phase = s.phase := rfl
@[simp] theorem setCancel_announced (s : State) (k : Nat) (phase : CancelPhase) :
    (s.setCancel k phase).announced = s.announced := rfl

@[simp] theorem setSubmit_phase (s : State) (t t' : TaskID) (phase : SubmitPhase) :
    (s.setSubmit t phase).phase t' = if t' = t then phase else s.phase t' := by
  simp only [State.phase, setSubmit, UnorderedMap.lookup_insert_eq]
  split <;> rfl

end State

/-! ## The steps -/

/-- Up to and including `ReserveFirstFit`. -/
def submitReserve (s : State) (t : TaskID) (executionId : ExecutionID) (hasOut : Bool)
    (submission : SubmitTaskSpec) : State :=
  let checked := ControlPlane.validateSubmission hasOut submission
  if checked.ok then
    let reserved := s.registry.reserveFirstFit submission.resources
    match reserved.1.ok, reserved.2.1 with
    | true, some node =>
      (s.setRegistry reserved.2.2).setSubmit t (.reserved ⟨executionId, submission, node⟩)
    | _, _ => (s.setRegistry reserved.2.2).setSubmit t (.refused reserved.1)
  else s.setSubmit t (.refused checked)

def cancelSnapshot (s : State) (k : Nat) (t : TaskID) : State :=
  if t.isNil then
    s.setCancel k (.returned (.InvalidArgument "cancel task id cannot be nil"))
  else
    match s.plane.cancelSnapshot t with
    | .error status => s.setCancel k (.returned status)
    | .ok record => s.setCancel k (.snapshot t record)

def cancelLocate (s : State) (k : Nat) (t : TaskID) (record : DistributedTaskRecord) : State :=
  match s.plane.cancelLocate record with
  | .error status => s.setCancel k (.returned status)
  | .ok node => s.setCancel k (.located t record node)

/-- One turn of the loop of `HandleNodeDead`, or its end. -/
def deadNext (s : State) (call : DeadCall) : State :=
  match call.remaining with
  | [] => { s with handling := none }
  | t :: rest =>
    let done := s.plane.failRecord call.nodeId call.incarnation t
    { s with
      plane := done.2
      handling := if done.1.ok then some { call with remaining := rest } else none }

/-- `tasks_mu_` is free. -/
def State.unlocked (s : State) : Bool := s.handling.isNone

def step (s : State) : Action → Option State
  | .registerNode node now => some (s.setRegistry (s.registry.registerNode node now).2)
  | .heartbeat nodeId incarnation reported running now =>
    some (s.setRegistry (s.registry.heartbeat nodeId incarnation reported running now).2)
  | .updateLiveness now suspectTimeout deadTimeout =>
    let done := s.registry.updateLiveness now suspectTimeout deadTimeout
    some { s.setRegistry done.2 with announced := s.announced ++ done.1 }
  | .removeNode nodeId incarnation =>
    some (s.setRegistry (s.registry.removeNode nodeId incarnation).2)
  | .submitReserve t executionId hasOut submission =>
    match s.phase t with
    | .unused => some (submitReserve s t executionId hasOut submission)
    | _ => none
  | .submitPublish t =>
    match s.unlocked, s.phase t with
    | true, .reserved call =>
      some ((s.setPlane (s.plane.publish
        (ControlPlane.newRecord t call.executionId call.node call.submission))).setSubmit t
          (.published call))
    | _, _ => none
  | .submitDispatched t status =>
    match s.phase t with
    | .published call =>
      some (s.setSubmit t (if status.ok then .accepted call else .undelivered call status))
    | _ => none
  | .submitErase t =>
    match s.unlocked, s.phase t with
    | true, .undelivered call status =>
      some ((s.setPlane (s.plane.eraseRecord t)).setSubmit t (.erased call status))
    | _, _ => none
  | .submitRelease t =>
    match s.phase t with
    | .erased call status =>
      let released := s.plane.release call.node.nodeId call.submission.resources
      some ((s.setPlane released.2).setSubmit t
        (.rolledBack call (ControlPlane.rollbackStatus released.1 status)))
    | _ => none
  | .cancelSnapshot k t =>
    match s.unlocked, s.cancelPhase k with
    | true, .idle => some (cancelSnapshot s k t)
    | _, _ => none
  | .cancelLocate k =>
    match s.cancelPhase k with
    | .snapshot t record => some (cancelLocate s k t record)
    | _ => none
  | .cancelDelivered k status =>
    match s.cancelPhase k with
    | .located t record _ =>
      some (s.setCancel k (if status.ok then .delivered t record else .returned status))
    | _ => none
  | .cancelPublish k =>
    match s.unlocked, s.cancelPhase k with
    | true, .delivered t record =>
      let done := s.plane.cancelPublish t record
      some ((s.setPlane done.2).setCancel k (.returned done.1))
    | _, _ => none
  | .report t executionId state terminalStatus result resultMediaType =>
    if s.unlocked then
      some (s.setPlane (s.plane.reportTaskResult t executionId state terminalStatus result
        resultMediaType).2)
    else none
  | .deadBegin nodeId incarnation order =>
    if s.unlocked ∧ UnorderedMap.Enumerates order s.plane.tasks then
      some { s with
        handling := some ⟨nodeId, incarnation, order⟩
        announced := s.announced.erase ⟨nodeId, incarnation⟩ }
    else none
  | .deadNext => s.handling.map (deadNext s)

/-! ## What each step does -/

variable {s u : State}

theorem State.unlocked_iff : s.unlocked = true ↔ s.handling = none := by
  simp [State.unlocked]

theorem State.setPlane_self (s : State) : s.setPlane s.plane = s := rfl

theorem step_submitReserve {t : TaskID} {e : ExecutionID} {hasOut : Bool}
    {submission : SubmitTaskSpec} (h : step s (.submitReserve t e hasOut submission) = some u) :
    s.phase t = .unused ∧ ((∃ status, u = s.setSubmit t (.refused status)) ∨
      ∃ id stored, s.registry.nodes.lookup id = some stored ∧ stored.record.state = .alive ∧
        stored.schedulablePool.canFit submission.resources = true ∧
        (s.registry.reserveFirstFit submission.resources).2.1 = some (StoredNode.withPool stored
          (stored.schedulablePool.acquire submission.resources).2).record ∧
        u = (s.setRegistry (s.registry.putPool id stored
          (stored.schedulablePool.acquire submission.resources).2)).setSubmit t
          (.reserved ⟨e, submission, (StoredNode.withPool stored
            (stored.schedulablePool.acquire submission.resources).2).record⟩)) := by
  simp only [step] at h
  split at h
  · rename_i hunused
    cases h
    refine ⟨hunused, ?_⟩
    simp only [submitReserve]
    split
    · obtain he | ⟨id, stored, hl, halive, hfit, he⟩ :=
        s.registry.reserveFirstFit_cases submission.resources
      · simp only [he]
        exact .inl ⟨_, rfl⟩
      · simp only [he]
        exact .inr ⟨id, stored, hl, halive, hfit, rfl, rfl⟩
    · exact .inl ⟨_, rfl⟩
  · cases h

/-- The first submission of a task is admitted or refused at once. -/
example (t : TaskID) (e : ExecutionID) (hasOut : Bool) (submission : SubmitTaskSpec) :
    step .initial (.submitReserve t e hasOut submission) =
      some (submitReserve .initial t e hasOut submission) := by
  simp only [step]
  rfl

theorem step_submitPublish {t : TaskID} (h : step s (.submitPublish t) = some u) :
    ∃ call, s.handling = none ∧ s.phase t = .reserved call ∧
      u = (s.setPlane (s.plane.publish
        (ControlPlane.newRecord t call.executionId call.node call.submission))).setSubmit t
          (.published call) := by
  simp only [step] at h
  split at h
  · rename_i call hunlocked hphase
    cases h
    exact ⟨call, State.unlocked_iff.mp hunlocked, hphase, rfl⟩
  · cases h

theorem step_submitDispatched {t : TaskID} {status : Status}
    (h : step s (.submitDispatched t status) = some u) : ∃ call, s.phase t = .published call ∧
      u = s.setSubmit t (if status.ok then .accepted call else .undelivered call status) := by
  simp only [step] at h
  split at h
  · rename_i call hphase
    cases h
    exact ⟨call, hphase, rfl⟩
  · cases h

theorem step_submitErase {t : TaskID} (h : step s (.submitErase t) = some u) :
    ∃ call status, s.handling = none ∧ s.phase t = .undelivered call status ∧
      u = (s.setPlane (s.plane.eraseRecord t)).setSubmit t (.erased call status) := by
  simp only [step] at h
  split at h
  · rename_i call status hunlocked hphase
    cases h
    exact ⟨call, status, State.unlocked_iff.mp hunlocked, hphase, rfl⟩
  · cases h

theorem step_submitRelease {t : TaskID} (h : step s (.submitRelease t) = some u) :
    ∃ call status, s.phase t = .erased call status ∧
      u = (s.setPlane (s.plane.release call.node.nodeId call.submission.resources).2).setSubmit t
        (.rolledBack call (ControlPlane.rollbackStatus
          (s.registry.release call.node.nodeId call.submission.resources).1 status)) := by
  simp only [step] at h
  split at h
  · rename_i call status hphase
    cases h
    exact ⟨call, status, hphase, rfl⟩
  · cases h

theorem step_cancelSnapshot {k : Nat} {t : TaskID} (h : step s (.cancelSnapshot k t) = some u) :
    ∃ phase, u = s.setCancel k phase := by
  simp only [step] at h
  split at h
  · cases h
    simp only [cancelSnapshot]
    split
    · exact ⟨_, rfl⟩
    · split <;> exact ⟨_, rfl⟩
  · cases h

theorem step_cancelLocate {k : Nat} (h : step s (.cancelLocate k) = some u) :
    ∃ phase, u = s.setCancel k phase := by
  simp only [step] at h
  split at h
  · cases h
    simp only [cancelLocate]
    split <;> exact ⟨_, rfl⟩
  · cases h

theorem step_cancelDelivered {k : Nat} {status : Status}
    (h : step s (.cancelDelivered k status) = some u) : ∃ phase, u = s.setCancel k phase := by
  simp only [step] at h
  split at h
  · cases h
    exact ⟨_, rfl⟩
  · cases h

theorem step_cancelPublish {k : Nat} (h : step s (.cancelPublish k) = some u) :
    ∃ phase, u = s.setCancel k phase ∨
      ∃ t current, s.handling = none ∧ s.record t = some current ∧
        isTerminal current.state = false ∧
        u = (s.setPlane { s.plane with
          tasks := s.plane.tasks.insert t { current with state := .cancelRequested } }).setCancel k
            phase := by
  simp only [step] at h
  split at h
  · rename_i t snapshot hunlocked hphase
    cases h
    refine ⟨.returned (s.plane.cancelPublish t snapshot).1, ?_⟩
    obtain he | ⟨current, hl, hterm, -, he⟩ := s.plane.cancelPublish_cases t snapshot
    · left
      rw [he]
      rfl
    · right
      exact ⟨t, current, State.unlocked_iff.mp hunlocked, hl, hterm, by rw [he]⟩
  · cases h

theorem step_report {t : TaskID} {e : ExecutionID} {state : DistributedTaskState}
    {terminalStatus : Status} {result : ByteString} {media : String}
    (h : step s (.report t e state terminalStatus result media) = some u) :
    s.handling = none ∧ (u = s ∧
        (∀ record, s.record t = some record → record.executionId = e →
          isTerminal record.state = false → isTerminal state = true →
          (s.registry.release record.nodeId record.resources).1.ok = false) ∨
      ∃ record, s.record t = some record ∧ record.executionId = e ∧
        isTerminal record.state = false ∧ isTerminal state = true ∧
        (s.registry.release record.nodeId record.resources).1.ok = true ∧
        u = s.setPlane ⟨(s.registry.release record.nodeId record.resources).2,
          s.plane.tasks.insert t { record with
            state := state, terminalStatus := terminalStatus, result := result,
            resultMediaType := media }⟩) := by
  simp only [step] at h
  split at h
  · rename_i hunlocked
    cases h
    refine ⟨State.unlocked_iff.mp hunlocked, ?_⟩
    obtain ⟨he, hno⟩ | ⟨record, hl, hexec, hlive, hterm, hok, he⟩ :=
      s.plane.reportTaskResult_cases t e state terminalStatus result media
    · exact .inl ⟨by rw [he, State.setPlane_self], hno⟩
    · exact .inr ⟨record, hl, hexec, hlive, hterm, hok, by rw [he]; rfl⟩
  · cases h

theorem step_deadBegin {nodeId : NodeID} {incarnation : Nat} {order : List TaskID}
    (h : step s (.deadBegin nodeId incarnation order) = some u) :
    s.handling = none ∧ UnorderedMap.Enumerates order s.plane.tasks ∧
      u = { s with
        handling := some ⟨nodeId, incarnation, order⟩
        announced := s.announced.erase ⟨nodeId, incarnation⟩ } := by
  simp only [step] at h
  split at h
  · rename_i hen
    cases h
    exact ⟨State.unlocked_iff.mp hen.1, hen.2, rfl⟩
  · cases h

/-- One turn of `HandleNodeDead`: it ends, passes over an entry, stops at a refused release, or
fails one record after its release. -/
theorem step_deadNext (h : step s .deadNext = some u) : ∃ call, s.handling = some call ∧
    (call.remaining = [] ∧ u = { s with handling := none } ∨
    ∃ t rest, call.remaining = t :: rest ∧
      ((∀ record, s.record t = some record →
          ¬ ControlPlane.failsWithNode call.nodeId call.incarnation record) ∧
        u = { s with handling := some { call with remaining := rest } } ∨
      (∃ record, s.record t = some record ∧
          ControlPlane.failsWithNode call.nodeId call.incarnation record ∧
          (s.registry.release record.nodeId record.resources).1.ok = false) ∧
        u = { s with handling := none } ∨
      ∃ record, s.record t = some record ∧
        ControlPlane.failsWithNode call.nodeId call.incarnation record ∧
        (s.registry.release record.nodeId record.resources).1.ok = true ∧
        u = { s.setPlane ⟨(s.registry.release record.nodeId record.resources).2,
            s.plane.tasks.insert t (ControlPlane.failedByNode record)⟩ with
          handling := some { call with remaining := rest } })) := by
  obtain ⟨call, hcall, rfl⟩ := Option.map_eq_some_iff.mp h
  refine ⟨call, hcall, ?_⟩
  simp only [deadNext]
  cases hrem : call.remaining with
  | nil => exact .inl ⟨rfl, rfl⟩
  | cons t rest =>
    right
    refine ⟨t, rest, rfl, ?_⟩
    obtain ⟨hcp, ⟨hok, hnone⟩ | ⟨hno, hrecord⟩⟩ | ⟨record, hl, hfails, hok, he⟩ :=
      s.plane.failRecord_cases call.nodeId call.incarnation t
    · left
      refine ⟨hnone, ?_⟩
      simp only [hcp, hok, Status.ok_OK, if_true]
    · right; left
      refine ⟨hrecord, ?_⟩
      simp only [hcp, hno, Bool.false_eq_true, if_false]
    · right; right
      refine ⟨record, hl, hfails, hok, ?_⟩
      simp only [he, Status.ok_OK, if_true]
      rfl

/-! ## A node and a task for concrete runs -/

namespace Sample

def nodeId : NodeID := .ofByte 1
def task (b : UInt8) : TaskID := .ofByte b
def execution (b : UInt8) : ExecutionID := .ofByte b

/-- A node with two CPUs under the given incarnation. -/
def node (incarnation : Nat) : NodeRecord where
  nodeId := nodeId
  workerEndpoint := "worker:1"
  totalResources := Sample.cpu Sample.twoCpus
  reportedAvailable := Sample.cpu Sample.twoCpus
  schedulableAvailable := .empty
  incarnation := incarnation
  state := .alive
  runningTasks := 0
  lastHeartbeatReceived := 0

/-- A task that asks for one CPU. -/
def submission : SubmitTaskSpec where
  tenantId := .ofByte 1
  agentId := .ofByte 1
  name := "task"
  entrypoint := "main"
  resources := ⟨Sample.cpu Sample.oneCpu⟩
  payload := []
  payloadMediaType := ""

def reserve (b : UInt8) : Action := .submitReserve (task b) (execution b) true submission
def succeed (b : UInt8) : Action := .report (task b) (execution b) .succeeded .OK [] ""
def lost : Status := .Unavailable "LaunchTask RPC failed after transport redelivery: "

end Sample

end ControlSystem

end AgentRuntime
