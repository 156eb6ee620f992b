import AgentRuntime.Node.NodeLifetimes

/-!
# The control plane

`dar::ControlPlane`, one definition for each section that runs under
`tasks_mu_` or under the registry's mutex. `SubmitTask` and `CancelTask` give
both up around their RPC, so their sections stand apart here and the system of
calls puts them in order.
-/
namespace AgentRuntime

structure SubmitTaskSpec where
  tenantId : TenantID
  agentId : AgentID
  name : String
  entrypoint : String
  resources : ResourceRequest
  payload : ByteString
  payloadMediaType : String
  deriving DecidableEq

inductive DistributedTaskState where
  | running | cancelRequested | succeeded | failed | canceled
  deriving DecidableEq, Repr

structure DistributedTaskRecord where
  taskId : TaskID
  executionId : ExecutionID
  nodeId : NodeID
  resources : ResourceRequest
  state : DistributedTaskState
  terminalStatus : Status
  result : ByteString
  resultMediaType : String
  nodeIncarnation : Nat
  deriving DecidableEq

def isTerminal (state : DistributedTaskState) : Bool :=
  state = .succeeded || state = .failed || state = .canceled

/-- The record belongs to a lifetime of a node. -/
def DistributedTaskRecord.belongsTo (record : DistributedTaskRecord) (nodeId : NodeID)
    (incarnation : Nat) : Prop :=
  record.nodeId = nodeId ∧ record.nodeIncarnation = incarnation

instance (record : DistributedTaskRecord) (nodeId : NodeID) (incarnation : Nat) :
    Decidable (record.belongsTo nodeId incarnation) := inferInstanceAs (Decidable (_ ∧ _))

structure ControlPlane where
  registry : NodeRegistry
  tasks : UnorderedMap TaskID DistributedTaskRecord

namespace ControlPlane

def empty : ControlPlane := ⟨.empty, ∅⟩

/-! ## SubmitTask -/

/-- The checks of `SubmitTask` that come before anything is reserved. -/
def validateSubmission (hasOut : Bool) (submission : SubmitTaskSpec) : Status :=
  if ¬ hasOut then .InvalidArgument "submit result must not be null"
  else if submission.tenantId.isNil then .InvalidArgument "tenant id cannot be nil"
  else if submission.agentId.isNil then .InvalidArgument "agent id cannot be nil"
  else if submission.entrypoint.isEmpty then .InvalidArgument "entrypoint cannot be empty"
  else .OK

def newRecord (taskId : TaskID) (executionId : ExecutionID) (selected : NodeRecord)
    (submission : SubmitTaskSpec) : DistributedTaskRecord where
  taskId := taskId
  executionId := executionId
  nodeId := selected.nodeId
  nodeIncarnation := selected.incarnation
  resources := submission.resources
  state := .running
  terminalStatus := .OK
  result := []
  resultMediaType := ""

/-- The first `tasks_mu_` section of `SubmitTask`. -/
def publish (cp : ControlPlane) (record : DistributedTaskRecord) : ControlPlane :=
  { cp with tasks := cp.tasks.emplace record.taskId record }

/-- The rollback section that erases the record. -/
def eraseRecord (cp : ControlPlane) (taskId : TaskID) : ControlPlane :=
  { cp with tasks := cp.tasks.erase taskId }

def release (cp : ControlPlane) (nodeId : NodeID) (resources : ResourceRequest) :
    Status × ControlPlane :=
  let released := cp.registry.release nodeId resources
  (released.1, { cp with registry := released.2 })

/-- What a `SubmitTask` returns whose dispatch failed. -/
def rollbackStatus (releaseStatus dispatchStatus : Status) : Status :=
  if releaseStatus.ok then dispatchStatus
  else .Internal "task dispatch failed and cluster resource rollback also failed"

/-! ## CancelTask -/

/-- The first `tasks_mu_` section of `CancelTask`: a snapshot, or an early return. -/
def cancelSnapshot (cp : ControlPlane) (taskId : TaskID) : Except Status DistributedTaskRecord :=
  match cp.tasks.lookup taskId with
  | none => .error (.NotFound "distributed task is not registered")
  | some record =>
    if isTerminal record.state then
      .error (.FailedPrecondition "distributed task is already terminal")
    else if record.state = .cancelRequested then .error .OK
    else .ok record

/-- The lifetime check on the snapshot. -/
def cancelLocate (cp : ControlPlane) (record : DistributedTaskRecord) : Except Status NodeRecord :=
  match cp.registry.getNode record.nodeId with
  | (status, none) => .error status
  | (_, some node) =>
    if node.incarnation ≠ record.nodeIncarnation then
      .error (.FailedPrecondition "task belongs to an obsolete node incarnation")
    else if node.state = .dead then .error (.Unavailable "task worker node is dead")
    else .ok node

/-- The second `tasks_mu_` section of `CancelTask`, after the worker accepted. -/
def cancelPublish (cp : ControlPlane) (taskId : TaskID) (snapshot : DistributedTaskRecord) :
    Status × ControlPlane :=
  match cp.tasks.lookup taskId with
  | none => (.NotFound "distributed task disappeared during cancellation", cp)
  | some current =>
    if current.executionId ≠ snapshot.executionId then
      (.FailedPrecondition "task execution changed during cancellation", cp)
    else if isTerminal current.state then (.OK, cp)
    else
      (.OK, { cp with
        tasks := cp.tasks.insert taskId { current with state := .cancelRequested } })

/-! ## ReportTaskResult -/

/-- A report for a record that is terminal already. -/
def sameCompletion (record : DistributedTaskRecord) (state : DistributedTaskState)
    (terminalStatus : Status) (result : ByteString) (resultMediaType : String) : Bool :=
  record.state = state && record.terminalStatus = terminalStatus && record.result = result &&
    record.resultMediaType = resultMediaType

def reportTaskResult (cp : ControlPlane) (taskId : TaskID) (executionId : ExecutionID)
    (state : DistributedTaskState) (terminalStatus : Status) (result : ByteString)
    (resultMediaType : String) : Status × ControlPlane :=
  if ¬ isTerminal state then
    (.InvalidArgument "reported task result must be terminal", cp)
  else
    match cp.tasks.lookup taskId with
    | none => (.NotFound "distributed task is not registered", cp)
    | some record =>
      if record.executionId ≠ executionId then
        (.FailedPrecondition "execution does not match current task execution", cp)
      else if isTerminal record.state then
        if sameCompletion record state terminalStatus result resultMediaType then (.OK, cp)
        else
          (.FailedPrecondition "conflicting terminal result for completed execution", cp)
      else
        let released := cp.release record.nodeId record.resources
        if released.1.ok then
          (.OK, { released.2 with tasks := released.2.tasks.insert taskId { record with
            state := state, terminalStatus := terminalStatus, result := result,
            resultMediaType := resultMediaType } })
        else released

/-! ## HandleNodeDead -/

/-- The record as `HandleNodeDead` leaves it. -/
def failedByNode (record : DistributedTaskRecord) : DistributedTaskRecord :=
  { record with
    state := .failed
    terminalStatus := .Unavailable "worker node became unavailable"
    result := []
    resultMediaType := "" }

/-- `HandleNodeDead` does something about this record. -/
def failsWithNode (nodeId : NodeID) (incarnation : Nat) (record : DistributedTaskRecord) : Prop :=
  record.belongsTo nodeId incarnation ∧ isTerminal record.state = false

instance (nodeId : NodeID) (incarnation : Nat) (record : DistributedTaskRecord) :
    Decidable (failsWithNode nodeId incarnation record) := inferInstanceAs (Decidable (_ ∧ _))

/-- The body of the loop of `HandleNodeDead` for the entry of one task; the loop goes on after
`OK` and returns any other status. -/
def failRecord (cp : ControlPlane) (nodeId : NodeID) (incarnation : Nat) (taskId : TaskID) :
    Status × ControlPlane :=
  match cp.tasks.lookup taskId with
  | none => (.OK, cp)
  | some record =>
    if failsWithNode nodeId incarnation record then
      let released := cp.release record.nodeId record.resources
      if released.1.ok then
        (.OK, { released.2 with tasks := released.2.tasks.insert taskId (failedByNode record) })
      else released
    else (.OK, cp)

/-! ## GetTaskRecord -/

def getTaskRecord (cp : ControlPlane) (hasOut : Bool) (taskId : TaskID) :
    Status × Option DistributedTaskRecord :=
  if ¬ hasOut then (.InvalidArgument "task record output must not be null", none)
  else
    match cp.tasks.lookup taskId with
    | none => (.NotFound "Distributed task is not registered", none)
    | some record => (.OK, some record)

/-! ## What each section does -/

@[simp] theorem publish_registry (cp : ControlPlane) (record : DistributedTaskRecord) :
    (cp.publish record).registry = cp.registry := rfl
@[simp] theorem eraseRecord_registry (cp : ControlPlane) (taskId : TaskID) :
    (cp.eraseRecord taskId).registry = cp.registry := rfl
@[simp] theorem release_tasks (cp : ControlPlane) (nodeId : NodeID) (resources : ResourceRequest) :
    (cp.release nodeId resources).2.tasks = cp.tasks := rfl
@[simp] theorem release_registry (cp : ControlPlane) (nodeId : NodeID)
    (resources : ResourceRequest) :
    (cp.release nodeId resources).2.registry = (cp.registry.release nodeId resources).2 := rfl
@[simp] theorem release_status (cp : ControlPlane) (nodeId : NodeID)
    (resources : ResourceRequest) :
    (cp.release nodeId resources).1 = (cp.registry.release nodeId resources).1 := rfl

theorem release_refused {cp : ControlPlane} {nodeId : NodeID} {resources : ResourceRequest}
    (h : (cp.registry.release nodeId resources).1.ok = false) :
    (cp.release nodeId resources).2 = cp := by
  simp only [release, NodeRegistry.release_refused h]

theorem lookup_publish (cp : ControlPlane) (record : DistributedTaskRecord) (t : TaskID) :
    (cp.publish record).tasks.lookup t =
      if t = record.taskId ∧ cp.tasks.lookup t = none then some record
      else cp.tasks.lookup t := by
  simp only [publish]
  cases h : cp.tasks.lookup record.taskId with
  | some old =>
    rw [UnorderedMap.emplace_of_some _ h]
    by_cases ht : t = record.taskId
    · subst ht
      simp [h]
    · simp [ht]
  | none =>
    rw [UnorderedMap.emplace_of_none _ h, UnorderedMap.lookup_insert_eq]
    by_cases ht : t = record.taskId
    · subst ht
      simp [h]
    · simp [ht]

theorem lookup_eraseRecord (cp : ControlPlane) (taskId t : TaskID) :
    (cp.eraseRecord taskId).tasks.lookup t = if t = taskId then none else cp.tasks.lookup t :=
  UnorderedMap.lookup_erase_eq cp.tasks taskId t

/-- `CancelTask` publishes at most `CANCEL_REQUESTED`, on a record that is not terminal. -/
theorem cancelPublish_cases (cp : ControlPlane) (taskId : TaskID)
    (snapshot : DistributedTaskRecord) :
    (cp.cancelPublish taskId snapshot).2 = cp ∨
    ∃ current, cp.tasks.lookup taskId = some current ∧ isTerminal current.state = false ∧
      current.executionId = snapshot.executionId ∧
      (cp.cancelPublish taskId snapshot).2 = { cp with
        tasks := cp.tasks.insert taskId { current with state := .cancelRequested } } := by
  simp only [cancelPublish]
  cases hl : cp.tasks.lookup taskId with
  | none => exact .inl rfl
  | some current =>
    by_cases he : current.executionId ≠ snapshot.executionId
    · exact .inl (by simp [he])
    by_cases ht : isTerminal current.state = true
    · exact .inl (by simp [he, ht])
    · simp only [he, ht, if_false]
      exact .inr ⟨current, rfl, by simpa using ht, not_not.mp he, rfl⟩

/-- A report changes something exactly when it is the first one for a live record of its
execution and its release succeeds. -/
theorem reportTaskResult_cases (cp : ControlPlane) (taskId : TaskID) (executionId : ExecutionID)
    (state : DistributedTaskState) (terminalStatus : Status) (result : ByteString)
    (resultMediaType : String) :
    (cp.reportTaskResult taskId executionId state terminalStatus result resultMediaType).2 = cp ∧
      (∀ record, cp.tasks.lookup taskId = some record → record.executionId = executionId →
        isTerminal record.state = false → isTerminal state = true →
        (cp.registry.release record.nodeId record.resources).1.ok = false) ∨
    ∃ record, cp.tasks.lookup taskId = some record ∧ record.executionId = executionId ∧
      isTerminal record.state = false ∧ isTerminal state = true ∧
      (cp.registry.release record.nodeId record.resources).1.ok = true ∧
      (cp.reportTaskResult taskId executionId state terminalStatus result resultMediaType).2 =
        ⟨(cp.registry.release record.nodeId record.resources).2,
          cp.tasks.insert taskId { record with
            state := state, terminalStatus := terminalStatus, result := result,
            resultMediaType := resultMediaType }⟩ := by
  simp only [reportTaskResult]
  by_cases hs : isTerminal state = true
  swap
  · exact .inl (by simp [hs])
  simp only [hs, not_true_eq_false, if_false]
  cases hl : cp.tasks.lookup taskId with
  | none => exact .inl ⟨rfl, by simp⟩
  | some record =>
    by_cases he : record.executionId ≠ executionId
    · left
      refine ⟨by simp [he], ?_⟩
      rintro _ ⟨⟩ hexec
      exact absurd hexec he
    simp only [he, if_false]
    by_cases ht : isTerminal record.state = true
    · left
      simp only [ht, if_true]
      refine ⟨by split <;> rfl, ?_⟩
      rintro _ ⟨⟩ - hlive
      rw [ht] at hlive
      cases hlive
    simp only [ht, if_false, Bool.false_eq_true]
    cases hr : (cp.registry.release record.nodeId record.resources).1.ok with
    | true =>
      right
      refine ⟨record, rfl, not_not.mp he, by simpa using ht, trivial, hr, ?_⟩
      simp [hr, release]
    | false =>
      left
      simp only [release_status, hr, Bool.false_eq_true, if_false]
      refine ⟨release_refused hr, ?_⟩
      rintro _ ⟨⟩ - - -
      exact hr

theorem failRecord_cases (cp : ControlPlane) (nodeId : NodeID) (incarnation : Nat)
    (taskId : TaskID) :
    (cp.failRecord nodeId incarnation taskId).2 = cp ∧
      ((cp.failRecord nodeId incarnation taskId).1 = .OK ∧
        (∀ record, cp.tasks.lookup taskId = some record →
          ¬ failsWithNode nodeId incarnation record) ∨
      (cp.failRecord nodeId incarnation taskId).1.ok = false ∧
        ∃ record, cp.tasks.lookup taskId = some record ∧
          failsWithNode nodeId incarnation record ∧
          (cp.registry.release record.nodeId record.resources).1.ok = false) ∨
    ∃ record, cp.tasks.lookup taskId = some record ∧ failsWithNode nodeId incarnation record ∧
      (cp.registry.release record.nodeId record.resources).1.ok = true ∧
      cp.failRecord nodeId incarnation taskId =
        (.OK, ⟨(cp.registry.release record.nodeId record.resources).2,
          cp.tasks.insert taskId (failedByNode record)⟩) := by
  simp only [failRecord]
  cases hl : cp.tasks.lookup taskId with
  | none => exact .inl ⟨rfl, .inl ⟨rfl, by simp⟩⟩
  | some record =>
    by_cases hf : failsWithNode nodeId incarnation record
    · simp only [hf, if_true]
      cases hr : (cp.registry.release record.nodeId record.resources).1.ok with
      | true =>
        right
        refine ⟨record, rfl, hf, hr, ?_⟩
        simp [hr, release]
      | false =>
        left
        simp only [release_status, hr, Bool.false_eq_true, if_false]
        exact ⟨release_refused hr, .inr ⟨trivial, record, rfl, hf, hr⟩⟩
    · simp only [hf, if_false]
      exact .inl ⟨trivial, .inl ⟨trivial, by rintro _ ⟨⟩; exact hf⟩⟩

end ControlPlane

end AgentRuntime
