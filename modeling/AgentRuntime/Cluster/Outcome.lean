import AgentRuntime.Cluster.Cluster
import AgentRuntime.Control.Idempotence
import AgentRuntime.Serialization.ReportMessage

/-!
# The outcome of a task on its way into its record

A task ends in its executor or in its queue. Either way the local record has an
outcome and a state that goes with it, and both arrive at the control plane as
they are.
-/
namespace AgentRuntime

/-! ## The end of a task -/

/-- `Execute`, of which a non-empty handler makes the given exit. -/
def Executor.execute (handler : TaskHandler) (exit : HandlerExit) : ExecutionOutcome :=
  if handler.isSome then outcome exit else emptyHandler

/-- How a task ends. -/
inductive Ending where
  | executed (handler : TaskHandler) (exit : HandlerExit)
  | cancelledInQueue
  deriving DecidableEq

namespace Ending

def outcome : Ending → ExecutionOutcome
  | .executed handler exit => Executor.execute handler exit
  | .cancelledInQueue => ⟨.Cancelled "task cancelled before execution", []⟩

/-- The section in which the task ends. -/
def apply (tm : TaskManager) (t : TaskID) : Ending → Status × Option TaskCompletion × TaskManager
  | .executed handler exit => tm.complete t (Executor.execute handler exit)
  | .cancelledInQueue => tm.cancel t

end Ending

/-- What the completion callback of a worker sends, if it finds an execution of the task. -/
def WorkerService.State.reportOf (worker : WorkerService.State) (completion : TaskCompletion) :
    Option ReportTaskResultRequest :=
  (worker.taskExecutions.lookup completion.taskId).map (ResultReporter.request completion)

/-- What the record of a task that has ended says, here and there. -/
structure Unchanged (outcome : ExecutionOutcome) (own : TaskRecord)
    (record : DistributedTaskRecord) : Prop where
  outcome : own.terminalStatus = outcome.status ∧ own.result = outcome.result
  status : record.terminalStatus = own.terminalStatus
  result : record.result = own.result
  succeeded : record.state = .succeeded ↔ own.terminalStatus.ok = true
  canceled : record.state = .canceled ↔ own.terminalStatus.isCancelled = true
  failed : record.state = .failed ↔
    own.terminalStatus.ok = false ∧ own.terminalStatus.isCancelled = false

/-! ## At the worker -/

/-- A task ends with its outcome in the record, and the callback is told what the record says. -/
theorem Ending.apply_ended {ending : Ending} {tm tm' : TaskManager} {t : TaskID} {status : Status}
    {completion : TaskCompletion} (h : ending.apply tm t = (status, some completion, tm')) :
    ∃ own, tm'.records.lookup t = some own ∧ completion = TaskManager.completionOf own ∧
      own.state = TaskManager.terminalState own.terminalStatus ∧
      own.terminalStatus = ending.outcome.status ∧ own.result = ending.outcome.result := by
  cases ending with
  | executed handler exit =>
    simp only [apply] at h
    obtain ⟨_, -, he, -⟩ | ⟨record, -, -, done, rfl, he⟩ :=
      tm.complete_cases t (Executor.execute handler exit)
    · rw [he] at h
      cases h
    · rw [he] at h
      obtain ⟨-, h⟩ := Prod.mk.inj h
      obtain ⟨hnotified, rfl⟩ := Prod.mk.inj h
      exact ⟨_, by simp, TaskManager.notification_some hnotified, rfl, rfl, rfl⟩
  | cancelledInQueue =>
    simp only [apply] at h
    obtain ⟨_, -, he, -⟩ | ⟨record, -, -, he⟩ | ⟨record, -, -, he⟩ := tm.cancel_cases t
    · rw [he] at h
      cases h
    · rw [he] at h
      obtain ⟨-, h⟩ := Prod.mk.inj h
      obtain ⟨hnotified, rfl⟩ := Prod.mk.inj h
      exact ⟨_, by simp, TaskManager.notification_some hnotified, rfl, rfl, rfl⟩
    · rw [he] at h
      cases h

/-- The state that a status is classified as is the one that the control plane reads. -/
theorem terminalState_fromProto (status : Status) :
    (TaskManager.terminalState status).toProto.fromProto =
      if status.ok then .succeeded else if status.isCancelled then .canceled else .failed := by
  simp only [TaskManager.terminalState]
  split
  · rfl
  · split <;> rfl

/-! ## The result -/

/-- A report that is answered with an OK leaves the outcome in the record as the worker has it,
and is recognised for as long as the record stays. -/
theorem outcome_unchanged {ending : Ending} {tm tm' : TaskManager} {t : TaskID} {status : Status}
    {completion : TaskCompletion} {worker : WorkerService.State}
    {request : ReportTaskResultRequest} {cp : ControlPlane}
    (hend : ending.apply tm t = (status, some completion, tm'))
    (hsent : worker.reportOf completion = some request)
    (hok : (ControlService.reportTaskResult cp request).1.fromProto.ok = true) :
    ∃ own record, tm'.records.lookup t = some own ∧ own.spec.id = completion.taskId ∧
      (ControlService.reportTaskResult cp request).2.tasks.lookup completion.taskId =
        some record ∧
      Unchanged ending.outcome own record ∧
      ∀ later : ControlPlane, later.tasks.lookup completion.taskId = some record →
        ControlService.reportTaskResult later request = (Status.OK.toProto, later) := by
  obtain ⟨own, hown, rfl, hstate, hstatus, hresult⟩ := ending.apply_ended hend
  obtain ⟨e, -, rfl⟩ := Option.map_eq_some_iff.mp hsent
  simp only [ControlService.reportTaskResult_request, WireStatus.fromProto_toProto] at hok ⊢
  obtain ⟨hterm, record, hrecord, hcarries⟩ := ControlPlane.carries_of_ok hok
  refine ⟨own, record, hown, rfl, hrecord, ?_, fun later hlater => ?_⟩
  · obtain ⟨-, hsame⟩ := hcarries
    simp only [ControlPlane.sameCompletion, Bool.and_eq_true, decide_eq_true_eq] at hsame
    obtain ⟨⟨⟨hrecorded, hcode⟩, hbytes⟩, -⟩ := hsame
    have hread : record.state = if own.terminalStatus.ok then .succeeded
        else if own.terminalStatus.isCancelled then .canceled else .failed := by
      rw [hrecorded, ← terminalState_fromProto, ← hstate]
      rfl
    have hexclusive : own.terminalStatus.ok = true → own.terminalStatus.isCancelled = false := by
      intro h
      rw [Status.eq_OK h]
      rfl
    refine ⟨⟨hstatus, hresult⟩, hcode, hbytes, ?_, ?_, ?_⟩ <;> rw [hread]
    all_goals
      cases hok : own.terminalStatus.ok with
      | true => simp [hexclusive hok]
      | false => cases own.terminalStatus.isCancelled <;> simp
  · rw [ControlPlane.recognised hterm hlater hcarries]

namespace Ending.Sample

def thrown : Ending := .executed LocalSystem.Sample.handler (.threw "out of tokens")

/-- A worker whose thread is about to complete the task, of which the handler has thrown. -/
def worker : WorkerService.State :=
  Run.stateAfter WorkerService.step
    (WorkerService.Sample.start ++ WorkerService.Sample.claim 1 1 1 ++
    WorkerService.Sample.submit 1 none ++ [.runtime (.loop .wait)] ++
    (LocalSystem.Sample.schedule (.ofByte 1)).map .runtime ++
    (LocalSystem.Sample.execute.take 3).map .runtime) WorkerService.Sample.worker

def ended : Status × Option TaskCompletion × TaskManager :=
  thrown.apply worker.runtime.taskManager (LocalSystem.Sample.task 1)

/-- The control plane that has sent the task. -/
def plane : ControlPlane :=
  (Run.stateAfter ControlSystem.step [.registerNode (ControlSystem.Sample.node 1) 0,
    ControlSystem.Sample.reserve 1, .submitPublish (ControlSystem.Sample.task 1)] .initial).plane

def completion : TaskCompletion where
  taskId := LocalSystem.Sample.task 1
  state := .failed
  executionId := .ofByte 1
  status := .Internal "task handler throw exception: out of tokens"
  result := []

def report : ReportTaskResultRequest := ResultReporter.request completion (.ofByte 1)

end Ending.Sample

theorem outcome_unchanged_thrown : ∃ record,
    (ControlService.reportTaskResult Ending.Sample.plane Ending.Sample.report).2.tasks.lookup
      (LocalSystem.Sample.task 1) = some record ∧ record.state = .failed ∧
    record.terminalStatus = .Internal "task handler throw exception: out of tokens" := by
  have hend : Ending.Sample.thrown.apply Ending.Sample.worker.runtime.taskManager
      (LocalSystem.Sample.task 1) =
        (.OK, some Ending.Sample.completion, Ending.Sample.ended.2.2) :=
    Prod.ext (by decide) (Prod.ext (by decide) rfl)
  have hsent : Ending.Sample.worker.reportOf Ending.Sample.completion =
      some Ending.Sample.report := by decide
  have hok : (ControlService.reportTaskResult Ending.Sample.plane
      Ending.Sample.report).1.fromProto.ok = true := by decide
  obtain ⟨own, record, -, -, hrecord, hunchanged, -⟩ := outcome_unchanged hend hsent hok
  have hstatus := hunchanged.status.trans hunchanged.outcome.1
  refine ⟨record, hrecord, hunchanged.failed.mpr ?_, hstatus⟩
  rw [hunchanged.outcome.1]
  exact ⟨rfl, rfl⟩

end AgentRuntime
