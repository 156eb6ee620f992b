import AgentRuntime.Cluster.Reporting
import AgentRuntime.Cluster.Rollback

/-!
# No completion is lost

A worker reports each completion once. If no report gets lost while its task is
open, and none meets a node that refuses the release, each task that has ended
at its worker is closed at the control plane when the worker is quiet.
-/
namespace AgentRuntime

namespace Cluster

open LocalSystem (Reporter completion? stateOf)

variable {carried : ResourceSet → Except Status ResourceSet} {config : String → WorkerConfig}

/-! ## The cluster -/

/-- The task of each request is on record, and each entry of a worker's map of executions is
that of a call. -/
structure Watched (carried : ResourceSet → Except Status ResourceSet) (s : State) : Prop where
  traced : Traced carried s
  named : ∀ endpoint, WorkerService.Named (s.workers endpoint)
  told : ∀ endpoint, LocalSystem.Told (s.workers endpoint).runtime
  launched : ∀ n rpc, s.rpcs.lookup n = some rpc → (s.control.phase rpc.taskId).isSent = true

theorem watched_initial : Watched carried (.initial config) where
  traced := traced_initial
  named _ := WorkerService.named_initial
  told endpoint := LocalSystem.told_initial (config endpoint).workerIds
    (config endpoint).resourcesPerWorker (config endpoint).resultReporter
  launched n rpc h := by simp [State.initial] at h

section

variable {s u : State} {a : Action}

/-- A step of the cluster is a step of the control plane, or does not concern it. -/
theorem step_control (h : Effect carried s a u) :
    u.control = s.control ∨ ∃ b, ControlSystem.step s.control b = some u.control := by
  cases h with
  | control _ _ hstep | reserve _ hstep | answered _ _ _ hstep | gaveUp _ _ hstep =>
    exact .inr ⟨_, hstep⟩
  | send | deliver | worker => exact .inl rfl

/-- What holds of the control plane, and after each step of it, holds after a step of the
cluster. -/
theorem control_keeps {P : ControlSystem.State → Prop} (h : Effect carried s a u)
    (hs : P s.control) (hstep : ∀ b v, ControlSystem.step s.control b = some v → P v) :
    P u.control := by
  obtain hsame | ⟨b, hb⟩ := step_control h
  · rw [hsame]
    exact hs
  · exact hstep b _ hb

theorem control_of_step {b : ControlSystem.Action} (h : step carried s (.control b) = some u) :
    ControlSystem.step s.control b = some u.control := by
  simp only [step, controlStep] at h
  split at h
  · cases h
  · split at h
    · cases h
    · obtain ⟨control, hstep, rfl⟩ := Option.map_eq_some_iff.mp h
      exact hstep
  · obtain ⟨control, hstep, rfl⟩ := Option.map_eq_some_iff.mp h
    exact hstep

theorem isSent_after (h : Effect carried s a u) {t : TaskID}
    (hsent : (s.control.phase t).isSent = true) : (u.control.phase t).isSent = true :=
  control_keeps (P := fun control => (control.phase t).isSent = true) h hsent
    fun _ _ hstep => (ControlSystem.step_task hstep t).isSent hsent

theorem closed_after (h : Effect carried s a u) {t : TaskID}
    (hsent : (s.control.phase t).isSent = true) (hclosed : s.control.isOpen t = false) :
    u.control.isOpen t = false :=
  control_keeps (P := fun control => control.isOpen t = false) h hclosed
    fun _ _ hstep => (ControlSystem.step_task hstep t).closed hsent hclosed

theorem Watched.step (hw : Watched carried s) (hstep : step carried s a = some u) :
    Watched carried u := by
  have h := effect hstep hw.traced
  have worker : ∀ endpoint, u.workers endpoint = s.workers endpoint ∨
      ∃ b, WorkerService.Effect (s.workers endpoint) b (u.workers endpoint) := by
    intro endpoint
    obtain ⟨hsame, -⟩ | ⟨b, hb, -⟩ := worker_step h endpoint
    · exact .inl hsame
    · exact .inr ⟨b, WorkerService.effect hb (hw.traced.workers endpoint).claims⟩
  refine ⟨step_traced h hw.traced, fun endpoint => ?_, fun endpoint => ?_, fun n rpc hrpc => ?_⟩
  · obtain hsame | ⟨b, hb⟩ := worker endpoint
    · rw [hsame]
      exact hw.named endpoint
    · exact WorkerService.step_named hb (hw.traced.workers endpoint) (hw.named endpoint)
  · obtain hsame | ⟨b, hb⟩ := worker endpoint
    · rw [hsame]
      exact hw.told endpoint
    · exact WorkerService.step_told hb (hw.traced.workers endpoint) (hw.told endpoint)
  · obtain ⟨rpc', hrpc', hkept⟩ | ⟨call, hphase, -, -⟩ := rpc_before h hrpc
    · rw [hkept.taskId]
      exact isSent_after h (hw.launched n rpc' hrpc')
    · exact isSent_after h (by rw [hphase]; rfl)

/-- The execution that a worker finds for a task is that of the call, which is on record. -/
theorem Watched.entry (hw : Watched carried s) {endpoint : String} {t : TaskID} {e : ExecutionID}
    (he : (s.workers endpoint).taskExecutions.lookup t = some e) :
    (∃ call, s.control.callOf t = some call ∧ call.executionId = e) ∧
      (s.control.phase t).isSent = true := by
  obtain ⟨n, hid⟩ := (hw.named endpoint).entry t e he
  obtain ⟨rpc, call, hrpc, -, rfl, hcall, hexecution, -⟩ := hw.traced.arrived endpoint n e t hid
  exact ⟨⟨call, hcall, hexecution⟩, hw.launched n rpc hrpc⟩

end

namespace Reporting

/-! ## The property -/

/-- No report of the worker is on its way, and none of its threads is in a handler or in the
completion callback. -/
def State.isQuiet (s : State) (endpoint : String) : Bool :=
  decide (∀ n ∈ s.reports.keys, ((s.reports.lookup n).all fun rpc =>
    decide (rpc.endpoint ≠ endpoint ∨ rpc.transit ≠ .sent)) = true) &&
  (completion? (s.worker endpoint).runtime .cancel).isNone &&
  (s.worker endpoint).runtime.pool.workerIds.all fun w =>
    !((s.worker endpoint).runtime.worker w).thread.engaged

/-- Each accepted task that has ended at a quiet worker has a terminal record, and its node
has been released. -/
def NoneLost (released : List TaskID) (s : State) (endpoint : String) : Prop :=
  s.isQuiet endpoint = true → ∀ t call, s.control.phase t = .accepted call → ∀ x,
    stateOf (s.worker endpoint).runtime.taskManager t = some x → x.isTerminal = true →
      ∃ record, s.control.record t = some record ∧ isTerminal record.state = true ∧ t ∈ released

/-! ## When it holds -/

/-- The task that a request reports. -/
def State.taskOf (s : State) (n : Nat) : Option TaskID :=
  (s.reports.lookup n).bind fun rpc => (decodeReport rpc.request).toOption.map Prod.fst

/-- No report is lost while its task is open, and none that arrives then finds its node gone,
or a pool of it that has less in use than the task asked for. -/
def reportsArrive (s : State) : Action → Bool
  | .lose n => (s.taskOf n).all fun t => !s.control.isOpen t
  | .handle n => (s.taskOf n).all fun t => !s.control.isOpen t || s.control.canRelease t
  | .cluster _ | .send _ _ _ => true

variable {s u : State} {a : Action} {seen : List Event}

theorem taskOf_of_decode {n : Nat} {rpc : ReportRpc} {t : TaskID} {e : ExecutionID}
    (hrpc : s.reports.lookup n = some rpc) (h : decodeReport rpc.request = .ok (t, e)) :
    s.taskOf n = some t := by
  simp [State.taskOf, hrpc, h, Except.toOption]

/-! ## The invariant -/

/-- The request reports an end of a task that is on record, under the execution of its call. -/
def Genuine (control : ControlSystem.State) (request : ReportTaskResultRequest) : Prop :=
  ∃ completion e call, request = ResultReporter.request completion e ∧
    completion.state.isTerminal = true ∧ control.callOf completion.taskId = some call ∧
    call.executionId = e ∧ (control.phase completion.taskId).isSent = true

structure Inv (carried : ResourceSet → Except Status ResourceSet) (seen : List Event) (s : State) :
    Prop where
  watched : Watched carried s.cluster
  recorded : ControlSystem.Recorded s.control
  filed : ∀ endpoint t e, ⟨endpoint, .reported t e⟩ ∈ seen → ∃ n rpc,
    s.reports.lookup n = some rpc ∧ rpc.endpoint = endpoint ∧ decodeReport rpc.request = .ok (t, e)
  genuine : ∀ n rpc, s.reports.lookup n = some rpc → Genuine s.control rpc.request
  closed : ∀ n rpc t e, s.reports.lookup n = some rpc → rpc.transit ≠ .sent →
    decodeReport rpc.request = .ok (t, e) → s.control.isOpen t = false

theorem inv_initial : Inv carried [] (.initial config) where
  watched := watched_initial
  recorded := ControlSystem.recorded_initial
  filed endpoint t e h := by cases h
  genuine n rpc h := by simp [State.initial] at h
  closed n rpc t e h := by simp [State.initial] at h

/-- The task of a genuine request is on record. -/
theorem Genuine.isSent {control : ControlSystem.State} {request : ReportTaskResultRequest}
    (h : Genuine control request) {t : TaskID} {e : ExecutionID}
    (hdecode : decodeReport request = .ok (t, e)) : (control.phase t).isSent = true := by
  obtain ⟨completion, e', call, rfl, -, -, -, hsent⟩ := h
  rw [decodeReport_request] at hdecode
  cases hdecode
  exact hsent

/-- The cluster takes one step, or none. -/
theorem cluster_keeps {P : Cluster.State → Prop} (h : Effect carried s a u)
    (hw : Watched carried s.cluster) (hs : P s.cluster)
    (hstep : ∀ b v, Cluster.step carried s.cluster b = some v →
      Cluster.Effect carried s.cluster b v → P v) : P u.cluster := by
  obtain ⟨hsame, -⟩ | ⟨b, hb, -⟩ := step_cluster h
  · rw [hsame]
    exact hs
  · exact hstep b _ hb (Cluster.effect hb hw.traced)

theorem watched_after (h : Effect carried s a u) (hw : Watched carried s.cluster) :
    Watched carried u.cluster :=
  cluster_keeps h hw hw fun _ _ hb _ => hw.step hb

theorem genuine_after (h : Effect carried s a u) (hw : Watched carried s.cluster)
    {request : ReportTaskResultRequest} (hg : Genuine s.control request) :
    Genuine u.control request := by
  refine cluster_keeps (P := fun cluster => Genuine cluster.control request) h hw hg
    fun b v _ hb => ?_
  obtain ⟨completion, e, call, hrequest, hterm, hcall, he, hsent⟩ := hg
  exact ⟨completion, e, call, hrequest, hterm, callOf_keep hb hcall, he, isSent_after hb hsent⟩

/-- A report that is sent is genuine. -/
theorem genuine_of_send (hi : Inv carried seen s) {endpoint : String} {r : Reporter}
    {completion : TaskCompletion} {e : ExecutionID}
    (hcompletion : completion? (s.worker endpoint).runtime r = some completion)
    (hentry : (s.worker endpoint).taskExecutions.lookup completion.taskId = some e) :
    Genuine s.control (ResultReporter.request completion e) := by
  obtain ⟨own, -, hterm, rfl⟩ := hi.watched.told endpoint r completion hcompletion
  obtain ⟨⟨call, hcall, he⟩, hsent⟩ := hi.watched.entry hentry
  exact ⟨_, e, call, rfl, hterm, hcall, he, hsent⟩

/-- A request is there already, or it is sent in this step; it is done with already, or it is
handled or lost in this step. -/
theorem report_before (h : Effect carried s a u) {n : Nat} {rpc : ReportRpc}
    (hrpc : u.reports.lookup n = some rpc) :
    (∃ rpc', s.reports.lookup n = some rpc' ∧ rpc'.request = rpc.request ∧
      (rpc'.transit = rpc.transit ∨ a = .handle n ∨ a = .lose n)) ∨
    ∃ endpoint r completion e, completion? (s.worker endpoint).runtime r = some completion ∧
      (s.worker endpoint).taskExecutions.lookup completion.taskId = some e ∧
      rpc = ⟨endpoint, ResultReporter.request completion e, .sent⟩ := by
  have keep : ∀ {m : Nat} {rpc₀ rpc₁ : ReportRpc}, s.reports.lookup m = some rpc₀ →
      rpc₁.request = rpc₀.request → (a = .handle m ∨ a = .lose m) →
      (s.reports.insert m rpc₁).lookup n = some rpc →
      ∃ rpc', s.reports.lookup n = some rpc' ∧ rpc'.request = rpc.request ∧
        (rpc'.transit = rpc.transit ∨ a = .handle n ∨ a = .lose n) := by
    intro m rpc₀ rpc₁ hm hsame ha hl
    rw [UnorderedMap.lookup_insert_eq] at hl
    split at hl
    · rename_i hn
      subst hn
      cases hl
      exact ⟨rpc₀, hm, hsame.symm, .inr ha⟩
    · exact ⟨rpc, hl, rfl, .inl rfl⟩
  cases h with
  | cluster | unsent => exact .inl ⟨rpc, hrpc, rfl, .inl rfl⟩
  | @send endpoint r m completion e cluster hcompletion hentry hnew hstep =>
    simp only [State.setReport, UnorderedMap.lookup_insert_eq] at hrpc
    split at hrpc
    · cases hrpc
      exact .inr ⟨endpoint, r, completion, e, hcompletion, hentry, rfl⟩
    · exact .inl ⟨rpc, hrpc, rfl, .inl rfl⟩
  | reject hm | handle hm => exact .inl (keep hm (by rfl) (.inl rfl) hrpc)
  | lose hm => exact .inl (keep hm (by rfl) (.inr rfl) hrpc)

/-- A request stays, with its worker. -/
theorem report_after (h : Effect carried s a u) {n : Nat} {rpc : ReportRpc}
    (hrpc : s.reports.lookup n = some rpc) : ∃ rpc', u.reports.lookup n = some rpc' ∧
      rpc'.endpoint = rpc.endpoint ∧ rpc'.request = rpc.request := by
  have keep : ∀ {m : Nat} {rpc₀ rpc₁ : ReportRpc}, s.reports.lookup m = some rpc₀ →
      rpc₁.endpoint = rpc₀.endpoint ∧ rpc₁.request = rpc₀.request →
      ∃ rpc', (s.reports.insert m rpc₁).lookup n = some rpc' ∧
        rpc'.endpoint = rpc.endpoint ∧ rpc'.request = rpc.request := by
    intro m rpc₀ rpc₁ hm hsame
    rw [UnorderedMap.lookup_insert_eq]
    split
    · rename_i hn
      subst hn
      rw [hrpc] at hm
      cases hm
      exact ⟨rpc₁, rfl, hsame⟩
    · exact ⟨rpc, hrpc, rfl, rfl⟩
  cases h with
  | cluster | unsent => exact ⟨rpc, hrpc, rfl, rfl⟩
  | @send endpoint r m completion e cluster hcompletion hentry hnew hstep =>
    refine ⟨rpc, ?_, rfl, rfl⟩
    simp only [State.setReport, UnorderedMap.lookup_insert_eq]
    rw [if_neg]
    · exact hrpc
    · rintro rfl
      rw [hrpc] at hnew
      cases hnew
  | reject hm | handle hm | lose hm => exact keep hm ⟨rfl, rfl⟩

/-- A report that the control plane handles closes its task. -/
theorem handle_closes (hi : Inv carried seen s) {n : Nat} (h : Effect carried s (.handle n) u)
    (hC : reportsArrive s (.handle n) = true) {rpc : ReportRpc} {t : TaskID} {e : ExecutionID}
    (hrpc : s.reports.lookup n = some rpc) (hdecode : decodeReport rpc.request = .ok (t, e)) :
    u.control.isOpen t = false := by
  obtain ⟨completion, e', call', hrequest, hterm, hcallOf, he, -⟩ := hi.genuine n rpc hrpc
  cases h with
  | reject hrpc' _ hcall =>
    rw [hrpc] at hrpc'
    cases hrpc'
    rw [call_of_decode hdecode] at hcall
    cases hcall
  | handle hrpc' _ hcall hstep =>
    rw [hrpc] at hrpc'
    cases hrpc'
    rw [call_of_decode hdecode] at hcall
    cases hcall
    rw [hrequest, decodeReport_request] at hdecode
    cases hdecode
    obtain ⟨control, hreport, rfl⟩ := Option.map_eq_some_iff.mp hstep
    refine ControlSystem.report_closes hi.recorded hreport hcallOf he ?_ (fun hopen => ?_)
    · rw [hrequest]
      simpa [ResultReporter.request] using hterm
    · have hdecode : decodeReport rpc.request = .ok (completion.taskId, e) := by
        rw [hrequest, decodeReport_request]
      have hopen' : s.control.isOpen completion.taskId = true := hopen
      simpa [reportsArrive, taskOf_of_decode hrpc hdecode, hopen'] using hC

/-- A report is seen when it is sent. -/
theorem reported_of_step (h : Effect carried s a u) {endpoint : String} {t : TaskID}
    {e : ExecutionID} (hmem : ⟨endpoint, .reported t e⟩ ∈ events s a) :
    ∃ n rpc, u.reports.lookup n = some rpc ∧ rpc.endpoint = endpoint ∧
      decodeReport rpc.request = .ok (t, e) := by
  cases h with
  | @cluster a cluster hno hstep =>
    exfalso
    cases a with
    | worker endpoint' b =>
      obtain ⟨ev, hev, he⟩ := List.mem_map.mp hmem
      cases he
      cases b with
      | callback r => cases hno
      | launchSubmit n =>
        simp only [WorkerService.events] at hev
        split at hev <;> simp at hev
      | runtime b => simp [WorkerService.events] at hev
      | _ => cases hev
    | control | dispatch | deliver | reply | fail => cases hmem
  | @send endpoint' r n completion e' cluster hcompletion hentry hnew hstep =>
    obtain ⟨ev, hev, he⟩ := List.mem_map.mp hmem
    cases he
    simp only [State.worker] at hcompletion hentry
    simp only [WorkerService.events, hcompletion, hentry, List.mem_singleton,
      WorkerService.Event.reported.injEq] at hev
    obtain ⟨rfl, rfl⟩ := hev
    exact ⟨n, ⟨endpoint, ResultReporter.request completion e, .sent⟩, by simp [State.setReport],
      rfl, decodeReport_request _ _⟩
  | @unsent endpoint' r n completion cluster hcompletion hentry hstep =>
    obtain ⟨ev, hev, he⟩ := List.mem_map.mp hmem
    simp only [State.worker] at hcompletion hentry
    simp [WorkerService.events, hcompletion, hentry] at hev
  | reject | handle | lose => cases hmem

theorem Inv.step (hi : Inv carried seen s) (hC : reportsArrive s a = true)
    (hstep : step carried s a = some u) : Inv carried (seen ++ events s a) u := by
  have h := effect hstep
  refine ⟨watched_after h hi.watched, ?_, fun endpoint t e hmem => ?_, fun n rpc hrpc => ?_,
    fun n rpc t e hrpc hdone hdecode => ?_⟩
  · exact cluster_keeps (P := fun cluster => ControlSystem.Recorded cluster.control) h hi.watched
      hi.recorded fun _ _ _ hb => control_keeps hb hi.recorded fun _ _ hc => hi.recorded.step hc
  · obtain hold | hnew := List.mem_append.mp hmem
    · obtain ⟨n, rpc, hrpc, hendpoint, hdecode⟩ := hi.filed endpoint t e hold
      obtain ⟨rpc', hrpc', hsame, hrequest⟩ := report_after h hrpc
      exact ⟨n, rpc', hrpc', hsame.trans hendpoint, by rw [hrequest]; exact hdecode⟩
    · exact reported_of_step h hnew
  · obtain ⟨rpc', hrpc', hrequest, -⟩ | ⟨endpoint, r, completion, e, hcompletion, hentry, rfl⟩ :=
      report_before h hrpc
    · rw [← hrequest]
      exact genuine_after h hi.watched (hi.genuine n rpc' hrpc')
    · exact genuine_after h hi.watched (genuine_of_send hi hcompletion hentry)
  · obtain ⟨rpc', hrpc', hrequest, htransit⟩ | ⟨endpoint, r, completion, e', -, -, rfl⟩ :=
      report_before h hrpc
    · rw [← hrequest] at hdecode
      have hsent := (hi.genuine n rpc' hrpc').isSent hdecode
      have keep : s.control.isOpen t = false → u.control.isOpen t = false := fun hclosed =>
        cluster_keeps (P := fun cluster => cluster.control.isOpen t = false) h hi.watched hclosed
          fun _ _ _ hb => closed_after hb hsent hclosed
      obtain hsame | rfl | rfl := htransit
      · exact keep (hi.closed n rpc' t e hrpc' (by rw [hsame]; exact hdone) hdecode)
      · exact handle_closes hi h hC hrpc' hdecode
      · refine keep ?_
        simpa [reportsArrive, taskOf_of_decode hrpc' hdecode] using hC
    · exact absurd rfl hdone

/-! ## The releases -/

/-- A step of the system is a step of the control plane with its releases, or does not concern
it. -/
theorem step_releases (h : step carried s a = some u) (hw : Watched carried s.cluster) :
    u.control = s.control ∧ releases s a = [] ∨
    ∃ b, ControlSystem.step s.control b = some u.control ∧
      releases s a = ControlSystem.givenBack s.control b := by
  cases effect h with
  | @cluster b cluster hno hstep =>
    cases b with
    | control c => exact .inr ⟨c, control_of_step hstep, rfl⟩
    | dispatch | deliver | reply | fail | worker =>
      -- what `DispatchTask` returns to releases nothing
      cases Cluster.effect hstep hw.traced <;> first
        | exact .inl ⟨rfl, rfl⟩
        | exact .inr ⟨_, ‹ControlSystem.step _ _ = some _›, rfl⟩
  | send _ _ _ hstep | unsent _ _ hstep =>
    obtain ⟨worker, -, rfl⟩ := Option.map_eq_some_iff.mp hstep
    exact .inl ⟨rfl, rfl⟩
  | reject hrpc _ hcall => exact .inl ⟨rfl, by simp [releases, hrpc, hcall]⟩
  | @handle n rpc c cluster hrpc _ hcall hstep =>
    exact .inr ⟨c, control_of_step hstep, by simp [releases, hrpc, hcall]⟩
  | lose => exact .inl ⟨rfl, rfl⟩

theorem step_kept {released : List TaskID} (h : step carried s a = some u)
    (hw : Watched carried s.cluster) (hk : ControlSystem.Kept released s.control) :
    ControlSystem.Kept (released ++ releases s a) u.control := by
  obtain ⟨hsame, hnone⟩ | ⟨b, hstep, hgiven⟩ := step_releases h hw
  · rw [hsame, hnone, List.append_nil]
    exact hk
  · rw [hgiven]
    exact hk.step hstep

/-! ## The result -/

theorem isQuiet_reports {endpoint : String} (h : s.isQuiet endpoint = true) {n : Nat}
    {rpc : ReportRpc} (hrpc : s.reports.lookup n = some rpc) (he : rpc.endpoint = endpoint) :
    rpc.transit ≠ .sent := by
  simp only [State.isQuiet, Bool.and_eq_true, decide_eq_true_eq] at h
  have hmem : n ∈ s.reports.keys := Finmap.mem_keys.mpr (Finmap.mem_iff.mpr ⟨rpc, hrpc⟩)
  have hn := h.1.1 n hmem
  rw [hrpc] at hn
  simpa [he] using hn

/-- At a quiet worker nobody is left to call the callback. -/
theorem isQuiet_told {endpoint : String} (h : s.isQuiet endpoint = true)
    (hi : WorkerService.Ledger (s.worker endpoint)) (t : TaskID) :
    ¬ WorkerService.Untold (s.worker endpoint) t := by
  rintro ⟨r, completion, hcompletion, -, -⟩
  simp only [State.isQuiet, Bool.and_eq_true, List.all_eq_true] at h
  cases r with
  | cancel =>
    have hnone := h.1.2
    rw [hcompletion] at hnone
    cases hnone
  | worker w =>
    have hthread : ((s.worker endpoint).runtime.worker w).thread = .reporting completion := by
      simp only [completion?, LocalSystem.Thread.completion?] at hcompletion
      split at hcompletion
      · rename_i hthread
        rw [hthread, Option.some.inj hcompletion]
      · cases hcompletion
    -- a thread with a completion belongs to a worker that was started
    cases hstarted : ((s.worker endpoint).runtime.pool.workers w).started with
    | true =>
      have hfree := h.2 w (hi.sound.inv.slots.listed w hstarted)
      rw [hthread] at hfree
      cases hfree
    | false =>
      have hoff := ((hi.sound.inv.slots.wellFormed w).down hstarted).2
      rw [show (s.worker endpoint).runtime.pool.workers w =
        (s.worker endpoint).runtime.worker w from rfl, hthread] at hoff
      cases hoff

variable {as : List Action}

/-- A run of the system is a run of the cluster. -/
theorem cluster_run (h : Run.run (step carried) as (.initial config) = some s) :
    ∃ bs, Run.run (Cluster.step carried) bs (.initial config) = some s.cluster ∧
      Cluster.observedIn carried bs (.initial config) =
        Run.observed (step carried) events as (.initial config) := by
  obtain ⟨bs, hcluster, hseen⟩ : ∃ bs,
      Run.run (Cluster.step carried) bs (State.cluster (.initial config)) = some s.cluster ∧
      Run.observed (Cluster.step carried) Cluster.events bs (State.cluster (.initial config)) =
        (Run.observed (step carried) events as (.initial config)).filterMap some := by
    refine Run.simulation (f := State.cluster) (I := fun _ => True)
      (fun _ _ _ _ _ => trivial) ?_ h trivial
    intro s a u _ hstep
    obtain ⟨hsame, hnone⟩ | ⟨b, hb, hevents⟩ := step_cluster (effect hstep)
    · exact ⟨[], by rw [hsame]; rfl, by rw [hnone]; rfl⟩
    · refine ⟨[b], by rw [Run.run_cons, hb]; rfl, ?_⟩
      rw [Run.observed_cons hb, hevents]
      simp [Run.observed]
  exact ⟨bs, hcluster, by rw [← List.filterMap_some (l := Run.observed _ _ as _), ← hseen]; rfl⟩

theorem kept_run (h : Run.run (step carried) as (.initial config) = some s) :
    ControlSystem.Kept (releasedIn carried as (.initial config)) s.control := by
  have hrun := Run.invariant_observed (C := fun _ _ => True)
    (I := fun released s => Watched carried s.cluster ∧ ControlSystem.Kept released s.control)
    (fun _ _ _ _ ⟨hw, hk⟩ _ hstep => ⟨watched_after (effect hstep) hw, step_kept hstep hw hk⟩)
    (Run.along_true _ _) h ⟨watched_initial, ControlSystem.kept_initial⟩
  exact hrun.2

/-- What a worker that reports its results has done in the run. -/
theorem reporting_run (h : Run.run (step carried) as (.initial config) = some s)
    {endpoint : String} (hreporter : (config endpoint).resultReporter = true) :
    WorkerService.Reporting ((Run.observed (step carried) events as (.initial config)).filterMap
      (Event.at? endpoint)) (s.worker endpoint) := by
  obtain ⟨bs, hcluster, hseen⟩ := cluster_run h
  obtain ⟨cs, hworker, hseen'⟩ := worker_run hcluster endpoint
  have hboot : (config endpoint).boot = .initial (config endpoint).registry
      (config endpoint).workerIds (config endpoint).resourcesPerWorker true := by
    rw [WorkerConfig.boot, hreporter]
  rw [hboot] at hworker hseen'
  rw [← hseen, ← hseen']
  exact WorkerService.reporting_run hworker

theorem at?_eq_some {endpoint : String} {ev : Event} {event : WorkerService.Event}
    (h : Event.at? endpoint ev = some event) : ev = ⟨endpoint, event⟩ := by
  obtain ⟨endpoint', event'⟩ := ev
  simp only [Event.at?] at h
  split at h
  · rename_i he
    cases h
    rw [he]
  · cases h

/-- An accepted task that has ended at a quiet worker is terminal at the control plane and has given
its reservation back, as long as its reports arrive there. -/
theorem none_lost (h : Run.run (step carried) as (.initial config) = some s)
    (hC : Run.Along (step carried) (fun s a => reportsArrive s a = true) as (.initial config))
    {endpoint : String} (hreporter : (config endpoint).resultReporter = true) :
    NoneLost (releasedIn carried as (.initial config)) s endpoint := by
  intro hquiet t call hphase x hx hterm
  have hi : Inv carried (Run.observed (step carried) events as (.initial config)) s :=
    Run.invariant_observed (fun _ _ _ _ hi hC hstep => hi.step hC hstep) hC h inv_initial
  have hreporting := reporting_run h hreporter
  obtain huntold | ⟨e, hmem⟩ := hreporting.accounted t x hx hterm
  · exact absurd huntold (isQuiet_told hquiet hreporting.ledger t)
  · obtain ⟨ev, hmem, hat⟩ := List.mem_filterMap.mp hmem
    rw [at?_eq_some hat] at hmem
    obtain ⟨n, rpc, hrpc, hendpoint, hdecode⟩ := hi.filed endpoint t e hmem
    have hclosed := hi.closed n rpc t e hrpc (isQuiet_reports hquiet hrpc hendpoint) hdecode
    exact (kept_run h).terminal (by rw [hphase]; rfl) hclosed

namespace Sample

def thread : Reporter := .worker LocalSystem.Sample.workerId

/-- A task is submitted, accepted and run, and its completion is with its thread. -/
def complete : List Action :=
  (Cluster.Sample.submit ++ Cluster.Sample.accept 0 ++
    Cluster.Action.reply (ControlSystem.Sample.task 1) ::
      WorkerService.Sample.run.map (Cluster.Action.worker Cluster.Sample.endpoint)).map .cluster

/-- The call of `Report` ends, and the thread goes on to its next task. -/
def goOn : List Action :=
  (WorkerService.Action.callbackReturn thread ::
    ((LocalSystem.Action.thread LocalSystem.Sample.workerId .reported ::
      LocalSystem.Sample.execute.drop 5) ++ LocalSystem.Sample.callback).map .runtime).map
    (fun a => .cluster (.worker Cluster.Sample.endpoint a))

/-- The request arrives; whether its reply does makes no difference. -/
def handled : List Action :=
  complete ++ [.send Cluster.Sample.endpoint thread 0, .handle 0] ++ goOn

def lost : List Action := complete ++ [.send Cluster.Sample.endpoint thread 0, .lose 0] ++ goOn

end Sample

set_option maxRecDepth 4000 in
theorem none_lost_handled : ∃ record,
    (Run.stateAfter (step .ok) Sample.handled (.initial Cluster.Sample.config)).control.record
      (ControlSystem.Sample.task 1) = some record ∧ isTerminal record.state = true ∧
    ControlSystem.Sample.task 1 ∈
      releasedIn .ok Sample.handled (.initial Cluster.Sample.config) := by
  have hrun : Run.run (step .ok) Sample.handled (.initial Cluster.Sample.config) =
      some (Run.stateAfter (step .ok) Sample.handled (.initial Cluster.Sample.config)) :=
    Run.run_stateAfter (by decide)
  have hnone : NoneLost (releasedIn .ok Sample.handled (.initial Cluster.Sample.config))
      (Run.stateAfter (step .ok) Sample.handled (.initial Cluster.Sample.config))
      Cluster.Sample.endpoint := none_lost hrun (by decide) rfl
  exact hnone (by decide) _ _ rfl .succeeded (by decide) rfl

set_option maxRecDepth 4000 in
/-- The one request is lost: the worker is quiet, and the task stays running with its node
reserved. -/
theorem completion_lost : ∃ s,
    Run.run (step .ok) Sample.lost (.initial Cluster.Sample.config) = some s ∧
    (s.control.record (ControlSystem.Sample.task 1)).map DistributedTaskRecord.state =
      some .running ∧
    ¬ NoneLost (releasedIn .ok Sample.lost (.initial Cluster.Sample.config)) s
      Cluster.Sample.endpoint := by
  obtain ⟨s, hrun, hrecord, hquiet, hphase, hstate⟩ : ∃ s,
      Run.run (step .ok) Sample.lost (.initial Cluster.Sample.config) = some s ∧
      (s.control.record (ControlSystem.Sample.task 1)).map DistributedTaskRecord.state =
        some .running ∧
      s.isQuiet Cluster.Sample.endpoint = true ∧
      (∃ call, s.control.phase (ControlSystem.Sample.task 1) = .accepted call) ∧
      stateOf (s.worker Cluster.Sample.endpoint).runtime.taskManager
        (ControlSystem.Sample.task 1) = some .succeeded :=
    ⟨_, Run.run_stateAfter (by decide), by decide, by decide, ⟨_, rfl⟩, by decide⟩
  obtain ⟨call, hphase⟩ := hphase
  refine ⟨s, hrun, hrecord, fun h => ?_⟩
  obtain ⟨record, hterminal, hended, -⟩ := h hquiet _ call hphase _ hstate rfl
  rw [hterminal] at hrecord
  rw [show record.state = .running from Option.some.inj hrecord] at hended
  cases hended

end Reporting

end Cluster

end AgentRuntime
