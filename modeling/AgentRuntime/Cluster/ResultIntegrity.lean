import AgentRuntime.Cluster.EndToEnd
import AgentRuntime.Cluster.LostReports
import AgentRuntime.Control.Detection
import AgentRuntime.Local.Outcomes

/-!
# Where the results come from

Reports are lost, repeated in their handling and overtaken by the death of a
node. Still each terminal record at the control plane is accounted for: it says
what the one execution of the task has made, that the task was cancelled in the
queue of its worker, or that its node was declared dead.
-/
namespace AgentRuntime

/-! ## The records of the control plane -/

/-- The record with an end of its task. -/
def DistributedTaskRecord.ended (record : DistributedTaskRecord) (state : DistributedTaskState)
    (terminalStatus : Status) (result : ByteString) (resultMediaType : String) :
    DistributedTaskRecord :=
  { record with
    state := state, terminalStatus := terminalStatus, result := result,
    resultMediaType := resultMediaType }

/-- The record of a task that has ended with the outcome at its worker. -/
def DistributedTaskRecord.concluded (record : DistributedTaskRecord) (outcome : ExecutionOutcome) :
    DistributedTaskRecord :=
  record.ended (TaskManager.terminalState outcome.status).toProto.fromProto outcome.status
    outcome.result ResultReporter.kResultMediaType

namespace ControlSystem

variable {s u : State} {a : Action}

theorem SameTask.ended {old new : DistributedTaskRecord} (h : SameTask old new)
    (state : DistributedTaskState) (terminalStatus : Status) (result : ByteString)
    (resultMediaType : String) :
    new.ended state terminalStatus result resultMediaType =
      old.ended state terminalStatus result resultMediaType := by
  obtain ⟨htask, hexecution, hnode, hincarnation, hresources⟩ := h
  simp [DistributedTaskRecord.ended, htask, hexecution, hnode, hincarnation, hresources]

/-- How a task comes to have a terminal record. -/
inductive Ends (s : State) (t : TaskID) : Action → DistributedTaskRecord → Prop where
  | reported {old state terminalStatus result resultMediaType} (hold : s.record t = some old) :
      Ends s t (.report t old.executionId state terminalStatus result resultMediaType)
        (old.ended state terminalStatus result resultMediaType)
  | nodeDied {old call} (hcall : s.handling = some call) (hold : s.record t = some old)
      (hof : old.belongsTo call.nodeId call.incarnation) :
      Ends s t .deadNext (ControlPlane.failedByNode old)

theorem record_before_insert {t t' : TaskID} {new record : DistributedTaskRecord}
    (hu : u.plane.tasks = s.plane.tasks.insert t' new) (hl : u.record t = some record) :
    s.record t = some record ∨ t = t' ∧ record = new := by
  rw [record_of_insert hu] at hl
  split at hl
  · rename_i ht
    cases hl
    exact .inr ⟨ht, rfl⟩
  · exact .inl hl

/-- A terminal record was there before the step, or the step ends its task. -/
theorem step_ends (h : step s a = some u) {t : TaskID} {record : DistributedTaskRecord}
    (hl : u.record t = some record) (hterm : isTerminal record.state = true) :
    s.record t = some record ∨ Ends s t a record := by
  -- a step that ends no task
  have keep : t ∉ givenBack s a ∨ u.phase t ≠ s.phase t → s.record t = some record := by
    intro hno
    cases step_task h t with
    | other _ hrecord | refused _ _ _ hrecord | reserved _ _ _ hrecord
    | delivered _ _ _ _ _ _ hrecord | undelivered _ _ _ _ hrecord
    | rolledBack _ _ _ _ _ hrecord => exact hrecord ▸ hl
    | published call _ _ _ hrecord =>
      rw [hrecord] at hl
      split at hl
      · cases hl
        cases hterm
      · exact hl
    | erased _ _ _ _ _ hrecord =>
      rw [hrecord] at hl
      cases hl
    | requested _ _ _ _ _ hnew hlive =>
      rw [hl] at hnew
      cases hnew
      rw [hterm] at hlive
      cases hlive
    | ended _ _ hphase _ _ _ _ _ hgiven =>
      rw [hgiven] at hno
      obtain hno | hno := hno
      · exact absurd List.mem_cons_self hno
      · exact absurd hphase hno
  cases a with
  | report t' e state terminalStatus result media =>
    obtain ⟨-, ⟨rfl, -⟩ | ⟨old, hold, rfl, -, -, -, hu⟩⟩ := step_report h
    · exact .inl hl
    · obtain hsame | ⟨rfl, rfl⟩ := record_before_insert (congrArg (·.plane.tasks) hu) hl
      · exact .inl hsame
      · exact .inr (.reported hold)
  | deadNext =>
    obtain ⟨call, hcall, ⟨-, rfl⟩ | ⟨t', rest, -, ⟨-, rfl⟩ | ⟨-, rfl⟩ | ⟨old, hold, hfails, -, hu⟩⟩⟩ :=
      step_deadNext h
    · exact .inl hl
    · exact .inl hl
    · exact .inl hl
    · obtain hsame | ⟨rfl, rfl⟩ := record_before_insert (congrArg (·.plane.tasks) hu) hl
      · exact .inl hsame
      · exact .inr (.nodeDied hcall hold hfails.1)
  | submitRelease t' =>
    -- the rollback gives back for a call, which it moves on
    obtain ⟨call, status, hphase, rfl⟩ := step_submitRelease h
    refine .inl (keep ?_)
    by_cases ht : t = t'
    · subst ht
      right
      simp [hphase]
    · left
      simp only [givenBack, releaseCall, hphase]
      split
      · simpa using ht
      · simp
  | registerNode | heartbeat | updateLiveness | removeNode | submitReserve | submitPublish
  | submitDispatched | submitErase | cancelSnapshot | cancelLocate | cancelDelivered
  | cancelPublish | deadBegin => exact .inl (keep (.inl List.not_mem_nil))

/-- The call of `HandleNodeDead` that is in its loop was there before, or begins. -/
theorem step_handling (h : step s a = some u) {call : DeadCall} (hcall : u.handling = some call) :
    (∃ call', s.handling = some call' ∧ call'.nodeId = call.nodeId ∧
      call'.incarnation = call.incarnation) ∨
    ∃ order, a = .deadBegin call.nodeId call.incarnation order := by
  by_cases ha : byDetector a = true
  · cases a with
    | updateLiveness =>
      cases h
      exact .inl ⟨call, hcall, rfl, rfl⟩
    | deadBegin nodeId incarnation order =>
      obtain ⟨-, -, rfl⟩ := step_deadBegin h
      cases hcall
      exact .inr ⟨order, rfl⟩
    | deadNext =>
      obtain ⟨-, call', hcall', hnone | ⟨_, hsome, hnode, hincarnation, -⟩⟩ := step_turn h
      · rw [hnone] at hcall
        cases hcall
      · rw [hsome] at hcall
        cases hcall
        exact .inl ⟨call', hcall', hnode.symm, hincarnation.symm⟩
    | _ => cases ha
  · exact .inl ⟨call, (step_elsewhere h (by simpa using ha)).1 ▸ hcall, rfl, rfl⟩

end ControlSystem

/-! ## The exits of the handlers -/

open LocalSystem (Outcomes Shows exitsOf)

namespace WorkerService

def exits (s : State) : Action → List (TaskID × HandlerExit)
  | .runtime a => LocalSystem.exits s.runtime a
  | _ => []

/-- The exits at a worker are those in its runtime. -/
theorem step_exits {s u : State} {a : Action} (h : Effect s a u) :
    u.runtime = s.runtime ∧ exits s a = [] ∨
    ∃ b, LocalSystem.step s.runtime b = some u.runtime ∧
      exits s a = LocalSystem.exits s.runtime b := by
  cases h with
  | begin | undecoded | reject | replay | claim | store | unreported | report | callbackReturn =>
    exact .inl ⟨rfl, rfl⟩
  | cancel _ _ ha =>
    cases a with
    | runtime b => exact absurd rfl (ha b)
    | _ => exact .inl ⟨rfl, rfl⟩
  | submit _ _ hstep | cancelRuntime _ hstep | runtime _ _ hstep | leave _ _ _ hstep =>
    exact .inr ⟨_, hstep, rfl⟩

end WorkerService

namespace Cluster

open LocalSystem (completion?)
open ControlSystem (SubmitCall)

variable {carried : ResourceSet → Except Status ResourceSet} {config : String → WorkerConfig}

/-- A handler is left at a worker. -/
structure Exit where
  endpoint : String
  taskId : TaskID
  exit : HandlerExit
  deriving DecidableEq

def Exit.at? (endpoint : String) (e : Exit) : Option (TaskID × HandlerExit) :=
  if e.endpoint = endpoint then some (e.taskId, e.exit) else none

def exits (s : State) : Action → List Exit
  | .worker endpoint a =>
    (WorkerService.exits (s.workers endpoint) a).map fun e => ⟨endpoint, e.1, e.2⟩
  | _ => []

theorem filterMap_at? (endpoint endpoint' : String) (evs : List (TaskID × HandlerExit)) :
    (evs.map fun e => Exit.mk endpoint' e.1 e.2).filterMap (Exit.at? endpoint) =
      if endpoint' = endpoint then evs else [] := by
  induction evs with
  | nil => simp
  | cons e evs ih =>
    rw [List.map_cons, List.filterMap_cons, ih]
    by_cases h : endpoint' = endpoint <;> simp [Exit.at?, h]

/-- What a worker has of the exits. -/
theorem exitsOf_at (endpoint : String) (left : List Exit) (t : TaskID) :
    exitsOf (left.filterMap (Exit.at? endpoint)) t =
      (left.filter fun e => e.endpoint = endpoint ∧ e.taskId = t).map Exit.exit := by
  induction left with
  | nil => rfl
  | cons e left ih =>
    rw [List.filterMap_cons, List.filter_cons]
    by_cases hend : e.endpoint = endpoint
    · by_cases ht : e.taskId = t
      · simpa [Exit.at?, hend, ht, exitsOf] using ih
      · simpa [Exit.at?, hend, ht, exitsOf] using ih
    · simpa [Exit.at?, hend] using ih

theorem mem_of_exitsOf {endpoint : String} {left : List Exit} {t : TaskID} {exit : HandlerExit}
    (h : exit ∈ exitsOf (left.filterMap (Exit.at? endpoint)) t) : ⟨endpoint, t, exit⟩ ∈ left := by
  rw [exitsOf_at] at h
  obtain ⟨⟨endpoint', t', exit'⟩, hmem, rfl⟩ := List.mem_map.mp h
  obtain ⟨hin, hat⟩ := List.mem_filter.mp hmem
  obtain ⟨rfl, rfl⟩ := of_decide_eq_true hat
  exact hin

section

variable {s u : State} {a : Action}

/-- The runtime of a worker takes a step with its exits, or does not change. -/
theorem runtime_step (h : Effect carried s a u) (hi : Traced carried s) (endpoint : String) :
    (u.workers endpoint).runtime = (s.workers endpoint).runtime ∧
      (exits s a).filterMap (Exit.at? endpoint) = [] ∨
    ∃ b, LocalSystem.step (s.workers endpoint).runtime b = some (u.workers endpoint).runtime ∧
      (exits s a).filterMap (Exit.at? endpoint) =
        LocalSystem.exits (s.workers endpoint).runtime b := by
  cases h with
  | control | reserve | answered | gaveUp => exact .inl ⟨rfl, rfl⟩
  | send ha =>
    refine .inl ⟨rfl, ?_⟩
    cases a with
    | worker endpoint' b => exact absurd rfl (ha endpoint' b)
    | control | dispatch | deliver | reply | fail => rfl
  | @deliver n rpc worker hrpc hstep =>
    by_cases he : endpoint = rpc.endpoint
    · subst he
      have hruntime : worker.runtime = (s.workers rpc.endpoint).runtime := by
        cases WorkerService.effect hstep (hi.workers rpc.endpoint).claims <;> rfl
      exact .inl ⟨by simpa [State.setWorker] using hruntime, rfl⟩
    · exact .inl ⟨by simp [State.setWorker, he], rfl⟩
  | @worker endpoint' b worker hb hstep =>
    rw [exits, filterMap_at?]
    by_cases he : endpoint' = endpoint
    · subst he
      rw [if_pos rfl]
      simpa [State.setWorker] using
        WorkerService.step_exits (WorkerService.effect hstep (hi.workers endpoint').claims)
    · rw [if_neg he]
      exact .inl ⟨by simp [State.setWorker, Ne.symm he], rfl⟩

/-- The exits of the cluster are those that its workers account for. -/
def Accounted (left : List Exit) (s : State) : Prop := ∀ endpoint,
  Outcomes (left.filterMap (Exit.at? endpoint)) (s.workers endpoint).runtime

theorem accounted_initial : Accounted [] (.initial config) := fun endpoint =>
  LocalSystem.outcomes_initial (config endpoint).workerIds (config endpoint).resourcesPerWorker
    (config endpoint).resultReporter

theorem step_accounted (h : Effect carried s a u) (hi : Traced carried s) {left : List Exit}
    (ho : Accounted left s) : Accounted (left ++ exits s a) u := by
  intro endpoint
  rw [List.filterMap_append]
  obtain ⟨hsame, hnone⟩ | ⟨b, hstep, hexits⟩ := runtime_step h hi endpoint
  · rw [hsame, hnone, List.append_nil]
    exact ho endpoint
  · have hinv := (hi.workers endpoint).sound.inv
    rw [hexits]
    exact (ho endpoint).step hinv (LocalSystem.step_outcome hstep hinv)

/-- A worker keeps the record of a task that has ended. -/
theorem step_own (h : Effect carried s a u) (hi : Traced carried s) {endpoint : String}
    {t : TaskID} {own : TaskRecord} (hl : (s.workers endpoint).runtime.record t = some own)
    (hterm : own.state.isTerminal = true) : (u.workers endpoint).runtime.record t = some own := by
  obtain ⟨hsame, -⟩ | ⟨b, hstep, -⟩ := runtime_step h hi endpoint
  · rw [hsame]
    exact hl
  · have hlive : ∀ {old : TaskRecord}, (s.workers endpoint).runtime.record t = some old →
        old.state.isTerminal = false → False := by
      intro old hold hno
      rw [hl] at hold
      cases hold
      rw [hterm] at hno
      cases hno
    cases LocalSystem.step_end hstep (hi.workers endpoint).sound.inv t with
    | same hrecord => exact hrecord.trans hl
    | live hbefore => exact (hlive hl (hbefore own hl)).elim
    | ended hold hactive => exact (hlive hold (ExecutionState.isTerminal_eq_false hactive)).elim

end

namespace Reporting

/-! ## The reports and the records -/

variable {s u : State} {a : Action} {taken : List Action}

/-- A call of `HandleNodeDead` for the lifetime has begun. -/
def Died (taken : List Action) (nodeId : NodeID) (incarnation : Nat) : Prop :=
  ∃ order, .cluster (.control (.deadBegin nodeId incarnation order)) ∈ taken

/-- What a record at the control plane rests on: the record of a worker, or a dead node. -/
inductive Backing (taken : List Action) (s : State) (t : TaskID) :
    DistributedTaskRecord → Prop where
  | reported {call own} (hcall : s.control.callOf t = some call)
      (hown : (s.worker call.node.workerEndpoint).runtime.record t = some own)
      (hterm : own.state.isTerminal = true) :
      Backing taken s t ((call.record t).ended own.state.toProto.fromProto own.terminalStatus
        own.result ResultReporter.kResultMediaType)
  | nodeDied {call} (hcall : s.control.callOf t = some call)
      (hdied : Died taken call.node.nodeId call.node.incarnation) :
      Backing taken s t (ControlPlane.failedByNode (call.record t))

structure Backed (carried : ResourceSet → Except Status ResourceSet) (taken : List Action)
    (s : State) : Prop where
  watched : Watched carried s.cluster
  delivered : Delivered s.cluster
  recorded : ControlSystem.Recorded s.control
  requests : ∀ n rpc, s.reports.lookup n = some rpc → ∃ t own e,
    (s.worker rpc.endpoint).runtime.record t = some own ∧ own.state.isTerminal = true ∧
      rpc.request = ResultReporter.request (TaskManager.completionOf own) e
  handling : ∀ call, s.control.handling = some call → Died taken call.nodeId call.incarnation
  records : ∀ t record, s.control.record t = some record → isTerminal record.state = true →
    Backing taken s t record

theorem backed_initial : Backed carried [] (.initial config) where
  watched := watched_initial
  delivered := delivered_initial
  recorded := ControlSystem.recorded_initial
  requests n rpc h := by simp [State.initial] at h
  handling call h := by cases h
  records t record h := by
    simp [State.initial, State.control, Cluster.State.initial, ControlSystem.State.initial,
      ControlSystem.State.record, ControlPlane.empty] at h

/-- What a worker has of a task is at the node that was reserved for it. -/
theorem Backed.at_node (hb : Backed carried taken s) {endpoint : String} {t : TaskID}
    {own : TaskRecord} (hl : (s.worker endpoint).runtime.record t = some own) :
    own.spec.id = t ∧ ∃ call, s.control.callOf t = some call ∧
      call.node.workerEndpoint = endpoint := by
  have hid := ((hb.watched.traced.workers endpoint).sound.inv.agreement.records t own hl).1
  obtain ⟨n, e, hc⟩ := (hb.delivered.sourced endpoint).records t own hl
  obtain ⟨call, hcall, hendpoint, -⟩ := hb.delivered.submitted hb.watched.traced hc
  rw [hid] at hcall
  exact ⟨hid, call, hcall, hendpoint⟩

theorem own_after (h : Effect carried s a u) (hw : Watched carried s.cluster) {endpoint : String}
    {t : TaskID} {own : TaskRecord} (hl : (s.worker endpoint).runtime.record t = some own)
    (hterm : own.state.isTerminal = true) :
    (u.worker endpoint).runtime.record t = some own := by
  have hkeep : ∀ b v, Cluster.step carried s.cluster b = some v →
      Cluster.Effect carried s.cluster b v →
      (v.workers endpoint).runtime.record t = some own :=
    fun _ _ _ hb => step_own hb hw.traced hl hterm
  exact cluster_keeps (P := fun v => (v.workers endpoint).runtime.record t = some own) h hw hl hkeep

theorem callOf_after (h : Effect carried s a u) (hw : Watched carried s.cluster) {t : TaskID}
    {call : SubmitCall} (hcall : s.control.callOf t = some call) :
    u.control.callOf t = some call :=
  cluster_keeps (P := fun v => v.control.callOf t = some call) h hw hcall
    fun _ _ _ hb => callOf_keep hb hcall

theorem Died.append {nodeId : NodeID} {incarnation : Nat} (h : Died taken nodeId incarnation)
    (as : List Action) : Died (taken ++ as) nodeId incarnation := by
  obtain ⟨order, hmem⟩ := h
  exact ⟨order, List.mem_append_left _ hmem⟩

theorem Backing.after (h : Effect carried s a u) (hw : Watched carried s.cluster) {t : TaskID}
    {record : DistributedTaskRecord} (hb : Backing taken s t record) :
    Backing (taken ++ [a]) u t record := by
  cases hb with
  | reported hcall hown hterm =>
    exact .reported (callOf_after h hw hcall) (own_after h hw hown hterm) hterm
  | nodeDied hcall hdied => exact .nodeDied (callOf_after h hw hcall) (hdied.append _)

/-- A request is there already, or it is sent in this step. -/
theorem report_cases (h : Effect carried s a u) {n : Nat} {rpc : ReportRpc}
    (hrpc : u.reports.lookup n = some rpc) :
    (∃ rpc', s.reports.lookup n = some rpc' ∧ rpc'.endpoint = rpc.endpoint ∧
      rpc'.request = rpc.request) ∨
    ∃ endpoint r completion e, completion? (s.worker endpoint).runtime r = some completion ∧
      (s.worker endpoint).taskExecutions.lookup completion.taskId = some e ∧
      rpc = ⟨endpoint, ResultReporter.request completion e, .sent⟩ := by
  obtain ⟨rpc', hrpc', -, -⟩ | hsent := report_before h hrpc
  · obtain ⟨rpc'', hrpc'', hendpoint, hrequest⟩ := report_after h hrpc'
    rw [hrpc] at hrpc''
    cases hrpc''
    exact .inl ⟨rpc', hrpc', hendpoint.symm, hrequest.symm⟩
  · exact .inr hsent

/-- What a step of the system does to the control plane: a step of its own that is no report, or
the report that it handles. -/
theorem step_plane (h : Effect carried s a u) (hw : Watched carried s.cluster) :
    u.control = s.control ∨ ∃ b, ControlSystem.step s.control b = some u.control ∧
      ((∀ t e state status result media, b ≠ .report t e state status result media) ∧
        (∀ nodeId incarnation order, b = .deadBegin nodeId incarnation order →
          a = .cluster (.control b)) ∨
      ∃ n rpc, s.reports.lookup n = some rpc ∧ call rpc.request = .ok b) := by
  cases h with
  | @cluster b cluster hno hstep =>
    cases Cluster.effect hstep hw.traced with
    | @control b _ _ _ hcontrol =>
      refine .inr ⟨b, hcontrol, .inl ⟨?_, fun _ _ _ _ => rfl⟩⟩
      rintro t e state status result media rfl
      cases hno
    | reserve _ hcontrol | answered _ _ _ hcontrol | gaveUp _ _ hcontrol =>
      exact .inr ⟨_, hcontrol, .inl ⟨by simp, by simp⟩⟩
    | send | deliver | worker => exact .inl rfl
  | send _ _ _ hstep | unsent _ _ hstep =>
    obtain ⟨worker, -, rfl⟩ := Option.map_eq_some_iff.mp hstep
    exact .inl rfl
  | reject | lose => exact .inl rfl
  | @handle n rpc b cluster hrpc _ hcall hstep =>
    exact .inr ⟨b, control_of_step hstep, .inr ⟨n, rpc, hrpc, hcall⟩⟩

/-- The old record of a task that ends is that of its call. -/
theorem Backed.call_of_record (hb : Backed carried taken s) {t : TaskID}
    {old : DistributedTaskRecord} (hold : s.control.record t = some old) :
    ∃ call, s.control.callOf t = some call ∧ ControlSystem.SameTask (call.record t) old := by
  obtain ⟨call, hsame, hphase⟩ := hb.recorded t old hold
  refine ⟨call, ?_, hsame⟩
  obtain hphase | ⟨status, hphase⟩ | hphase := hphase <;>
    simp [ControlSystem.State.callOf, hphase, ControlSystem.SubmitPhase.call?]

/-- A record that a step of the control plane ends is backed. -/
theorem Backed.ends (hb : Backed carried taken s) (h : Effect carried s a u)
    {b : ControlSystem.Action} {t : TaskID} {record : DistributedTaskRecord}
    (hends : ControlSystem.Ends s.control t b record)
    (hof : (∀ t e state status result media, b ≠ .report t e state status result media) ∨
      ∃ n rpc, s.reports.lookup n = some rpc ∧ call rpc.request = .ok b) :
    Backing (taken ++ [a]) u t record := by
  refine Backing.after h hb.watched ?_
  cases hends with
  | @reported old state status result media hold =>
    obtain hno | ⟨n, rpc, hrpc, hcall⟩ := hof
    · exact absurd rfl (hno _ _ _ _ _ _)
    · obtain ⟨t', own, e, hown, hterm, hrequest⟩ := hb.requests n rpc hrpc
      obtain ⟨hid, call', hcallOf, hendpoint⟩ := hb.at_node hown
      obtain ⟨call'', hcallOf', hsame⟩ := hb.call_of_record hold
      rw [hrequest, call_of_decode (decodeReport_request _ _)] at hcall
      injection hcall with hcall
      injection hcall with htask hexecution hstate hstatus hresult hmedia
      have ht : t' = t := hid.symm.trans htask
      subst ht
      rw [hcallOf] at hcallOf'
      cases hcallOf'
      rw [hsame.ended, ← hstate, ← hstatus, ← hresult, ← hmedia]
      simp only [ResultReporter.request, WireStatus.fromProto_toProto]
      rw [← hendpoint] at hown
      exact .reported hcallOf hown hterm
  | @nodeDied old dead hdead hold hbelongs =>
    obtain ⟨call', hcallOf, hsame⟩ := hb.call_of_record hold
    have hfailed : ControlPlane.failedByNode old = ControlPlane.failedByNode (call'.record t) :=
      hsame.ended _ _ _ _
    rw [hfailed]
    refine .nodeDied hcallOf ?_
    have hdied := hb.handling dead hdead
    rw [← hbelongs.1, ← hbelongs.2, hsame.nodeId, hsame.nodeIncarnation] at hdied
    exact hdied

theorem Backed.step (hb : Backed carried taken s) (hstep : step carried s a = some u) :
    Backed carried (taken ++ [a]) u := by
  have h := effect hstep
  have hw := watched_after h hb.watched
  refine ⟨hw, ?_, ?_, fun n rpc hrpc => ?_, fun dead hdead => ?_, fun t record hl hterm => ?_⟩
  · exact cluster_keeps (P := Delivered) h hb.watched hb.delivered
      fun _ _ _ he => step_delivered he hb.watched.traced hb.delivered
  · exact cluster_keeps (P := fun v => ControlSystem.Recorded v.control) h hb.watched hb.recorded
      fun _ _ _ he => control_keeps he hb.recorded fun _ _ hc => hb.recorded.step hc
  · obtain ⟨rpc', hrpc', hsame⟩ | ⟨endpoint, r, completion, e, hcompletion, -, rfl⟩ :=
      report_cases h hrpc
    · obtain ⟨t, own, e, hown, hterm, hrequest⟩ := hb.requests n rpc' hrpc'
      rw [← hsame.1, ← hsame.2]
      exact ⟨t, own, e, own_after h hb.watched hown hterm, hterm, hrequest⟩
    · obtain ⟨own, hown, hterm, rfl⟩ := hb.watched.told endpoint r completion hcompletion
      exact ⟨_, own, e, own_after h hb.watched hown hterm, hterm, rfl⟩
  · obtain hsame | ⟨b, hcontrol, hof⟩ := step_plane h hb.watched
    · exact (hb.handling dead (hsame ▸ hdead)).append _
    · obtain ⟨dead', hdead', hnode, hincarnation⟩ | ⟨order, rfl⟩ :=
        ControlSystem.step_handling hcontrol hdead
      · rw [← hnode, ← hincarnation]
        exact (hb.handling dead' hdead').append _
      · obtain ⟨-, hbegin⟩ | ⟨n, rpc, -, hcall⟩ := hof
        · exact ⟨order, List.mem_append_right _ (by simp [hbegin _ _ _ rfl])⟩
        · cases hdecode : decodeReport rpc.request with
          | error status =>
            rw [call, hdecode] at hcall
            cases hcall
          | ok ids =>
            rw [call_of_decode hdecode] at hcall
            cases hcall
  · obtain hsame | ⟨b, hcontrol, hof⟩ := step_plane h hb.watched
    · rw [hsame] at hl
      exact (hb.records t record hl hterm).after h hb.watched
    · obtain hold | hends := ControlSystem.step_ends hcontrol hl hterm
      · exact (hb.records t record hold hterm).after h hb.watched
      · exact hb.ends h hends (hof.imp And.left id)

/-! ## The result -/

def exits (s : State) : Action → List Exit
  | .cluster a => Cluster.exits s.cluster a
  | .send _ _ _ | .handle _ | .lose _ => []

/-- Where a terminal record of the task comes from, given all exits of handlers in the cluster and
the lifetimes of nodes that `HandleNodeDead` was called for. -/
inductive Origin (left : List Exit) (died : NodeID → Nat → Prop) (call : SubmitCall) (t : TaskID) :
    DistributedTaskRecord → Prop where
  /-- The handler was left once in the cluster, at the node that was reserved. -/
  | executed (exit)
      (hleft : left.filter (fun e => e.taskId = t) = [⟨call.node.workerEndpoint, t, exit⟩]) :
      Origin left died call t ((call.record t).concluded (Executor.outcome exit))
  | withdrawn (hleft : left.filter (fun e => e.taskId = t) = []) :
      Origin left died call t ((call.record t).concluded LocalSystem.withdrawal)
  | nodeDied (hdied : died call.node.nodeId call.node.incarnation) :
      Origin left died call t (ControlPlane.failedByNode (call.record t))

theorem concluded_of_shows {record : DistributedTaskRecord} {own : TaskRecord}
    {outcome : ExecutionOutcome} (h : Shows own outcome) :
    record.ended own.state.toProto.fromProto own.terminalStatus own.result
      ResultReporter.kResultMediaType = record.concluded outcome := by
  obtain ⟨hstate, hstatus, hresult⟩ := h
  rw [hstate, hstatus, hresult]
  rfl

/-- What the workers account for. -/
theorem accounted_after (h : Effect carried s a u) (hw : Watched carried s.cluster)
    {left : List Exit} (ho : Accounted left s.cluster) : Accounted (left ++ exits s a) u.cluster := by
  have same : ∀ {cluster : Cluster.State} {b : Cluster.Action},
      Cluster.step carried s.cluster b = some cluster → Cluster.exits s.cluster b = [] →
      Accounted (left ++ []) cluster := by
    intro cluster b hstep hnone
    rw [← hnone]
    exact step_accounted (Cluster.effect hstep hw.traced) hw.traced ho
  cases h with
  | cluster _ hstep => exact step_accounted (Cluster.effect hstep hw.traced) hw.traced ho
  | send _ _ _ hstep | unsent _ _ hstep | handle _ _ _ hstep => exact same hstep rfl
  | reject | lose =>
    rw [exits, List.append_nil]
    exact ho

/-- A task whose handler was left has a record at the worker, so that all of its exits are at the
node of its call. -/
theorem exits_at_node (hb : Backed carried taken s) {left : List Exit}
    (ho : Accounted left s.cluster) {t : TaskID} {call : SubmitCall}
    (hcall : s.control.callOf t = some call) (e : Exit) (hmem : e ∈ left) (ht : e.taskId = t) :
    e.endpoint = call.node.workerEndpoint := by
  have hne : exitsOf (left.filterMap (Exit.at? e.endpoint)) t ≠ [] := by
    rw [exitsOf_at]
    have hin : e ∈ left.filter fun e' => e'.endpoint = e.endpoint ∧ e'.taskId = t :=
      List.mem_filter.mpr ⟨hmem, by simp [ht]⟩
    intro hnil
    rw [List.map_eq_nil_iff.mp hnil] at hin
    cases hin
  have hrecord : ∃ own, (s.worker e.endpoint).runtime.record t = some own := by
    by_contra hno
    refine hne ((ho e.endpoint).open_ t (fun own hl => absurd ⟨own, hl⟩ hno) ?_)
    intro w outcome hw
    have hinv := (hb.watched.traced.workers e.endpoint).sound.inv
    obtain ⟨own, hl, -⟩ := hinv.running_of_outcome hw
    exact hno ⟨own, hl⟩
  obtain ⟨own, hl⟩ := hrecord
  obtain ⟨-, call', hcall', hendpoint⟩ := hb.at_node hl
  rw [hcall] at hcall'
  cases hcall'
  exact hendpoint.symm

/-- The exits of a task in the cluster, from those that the worker of its node has. -/
theorem filter_exits {left : List Exit} {endpoint : String} {t : TaskID} {exits : List HandlerExit}
    (hat : ∀ e ∈ left, e.taskId = t → e.endpoint = endpoint)
    (h : exitsOf (left.filterMap (Exit.at? endpoint)) t = exits) :
    left.filter (fun e => e.taskId = t) = exits.map fun exit => ⟨endpoint, t, exit⟩ := by
  rw [exitsOf_at] at h
  rw [← h, List.map_map]
  have hsame : left.filter (fun e => e.taskId = t) =
      left.filter (fun e => e.endpoint = endpoint ∧ e.taskId = t) := by
    refine List.filter_congr fun e hmem => ?_
    have hend := hat e hmem
    by_cases ht : e.taskId = t
    · simp [ht, hend ht]
    · simp [ht]
  rw [hsame]
  refine (List.map_id _).symm.trans (List.map_congr_left fun e hmem => ?_)
  obtain ⟨hend, ht⟩ := of_decide_eq_true (List.mem_filter.mp hmem).2
  obtain ⟨endpoint', t', exit⟩ := e
  cases hend
  cases ht
  rfl

variable {as : List Action}

theorem backed_run (h : Run.run (step carried) as (.initial config) = some s) :
    Backed carried as s ∧
      Accounted (Run.observed (step carried) exits as (.initial config)) s.cluster := by
  have hbacked : ∀ taken (s : State) a u, Backed carried taken s → True →
      step carried s a = some u → Backed carried (taken ++ [a]) u :=
    fun _ _ _ _ hb _ hstep => hb.step hstep
  have haccounted : ∀ left (s : State) a u, Watched carried s.cluster ∧ Accounted left s.cluster →
      True → step carried s a = some u →
      Watched carried u.cluster ∧ Accounted (left ++ exits s a) u.cluster :=
    fun _ _ _ _ hs _ hstep =>
      ⟨watched_after (effect hstep) hs.1, accounted_after (effect hstep) hs.1 hs.2⟩
  have hb : Backed carried ([] ++ Run.observed (step carried) (fun _ a => [a]) as _) s :=
    Run.invariant_observed hbacked (Run.along_true as _) h backed_initial
  rw [List.nil_append, Run.observed_labels h] at hb
  exact ⟨hb, (Run.invariant_observed haccounted (Run.along_true as _) h
    ⟨watched_initial, accounted_initial⟩).2⟩

/-- Each terminal record says what the one execution of its task has made, that the task was
cancelled before it was executed, or that its node is gone. -/
theorem results_genuine (h : Run.run (step carried) as (.initial config) = some s) {t : TaskID}
    {record : DistributedTaskRecord} (hl : s.control.record t = some record)
    (hterm : isTerminal record.state = true) :
    ∃ call, s.control.callOf t = some call ∧
      Origin (Run.observed (step carried) exits as (.initial config)) (Died as) call t record := by
  obtain ⟨hb, ho⟩ := backed_run h
  cases hb.records t record hl hterm with
  | @reported call own hcall hown hended =>
    refine ⟨call, hcall, ?_⟩
    have hexits := (ho call.node.workerEndpoint).ended t own hown hended
    generalize hof : exitsOf _ t = left at hexits
    have hfilter := filter_exits (exits_at_node hb ho hcall) hof
    cases hexits with
    | executed exit hshows =>
      rw [concluded_of_shows hshows]
      exact .executed exit hfilter
    | withdrawn hshows =>
      rw [concluded_of_shows hshows]
      exact .withdrawn hfilter
  | @nodeDied call hcall hdied => exact ⟨call, hcall, .nodeDied hdied⟩

set_option maxRecDepth 4000 in
theorem results_genuine_handled : ∃ record call,
    (Run.stateAfter (step .ok) Sample.handled (.initial Cluster.Sample.config)).control.record
      (ControlSystem.Sample.task 1) = some record ∧ record.state = .succeeded ∧
    Origin (Run.observed (step .ok) exits Sample.handled (.initial Cluster.Sample.config))
      (Died Sample.handled) call (ControlSystem.Sample.task 1) record := by
  have hrun : Run.run (step .ok) Sample.handled (.initial Cluster.Sample.config) =
      some (Run.stateAfter (step .ok) Sample.handled (.initial Cluster.Sample.config)) :=
    Run.run_stateAfter (by decide)
  have hstate : ((Run.stateAfter (step .ok) Sample.handled
      (.initial Cluster.Sample.config)).control.record (ControlSystem.Sample.task 1)).map
        DistributedTaskRecord.state = some .succeeded := by decide
  obtain ⟨record, hl, hsucceeded⟩ := Option.map_eq_some_iff.mp hstate
  obtain ⟨call, -, horigin⟩ := results_genuine hrun hl (by rw [hsucceeded]; rfl)
  exact ⟨record, call, hl, hsucceeded, horigin⟩

end Reporting

end Cluster

end AgentRuntime
