import AgentRuntime.Cluster.Cluster
import AgentRuntime.Control.TaskSteps
import AgentRuntime.Service.Refusals

/-!
# Requests and the calls that send them

Every request at a worker can be traced to the `SubmitTask` call that has sent
it, and a call has an execution of its own.
-/
namespace AgentRuntime

namespace Cluster

open ControlSystem (SubmitCall)
open WorkerService (identity?)

variable {carried : ResourceSet → Except Status ResourceSet} {config : String → WorkerConfig}

/-- The identities in a descriptor survive the wire. -/
theorem decodeLaunch_descriptor {registry : HandlerRegistry} {taskId : TaskID}
    {executionId e : ExecutionID} {submission : SubmitTaskSpec} {spec : TaskSpec}
    {handler : TaskHandler}
    (h : decodeLaunch registry (ControlPlane.descriptor carried taskId executionId submission) =
      .ok (e, spec, handler)) : e = executionId ∧ spec.id = taskId := by
  obtain ⟨hexecution, htask⟩ := decodeLaunch_ok h
  simp only [ControlPlane.descriptor, StrongID.fromProto_toProto] at hexecution htask
  cases hexecution
  exact ⟨rfl, (Except.ok.inj htask).symm⟩

/-- The request is one of the `DispatchTask` of this call. -/
def Rpc.IsOf (rpc : Rpc) (carried : ResourceSet → Except Status ResourceSet)
    (call : SubmitCall) : Prop :=
  rpc.endpoint = call.node.workerEndpoint ∧
    rpc.task = ControlPlane.descriptor carried rpc.taskId call.executionId call.submission

structure Traced (carried : ResourceSet → Except Status ResourceSet) (s : State) : Prop where
  workers : ∀ endpoint, WorkerService.Ledger (s.workers endpoint)
  drawn : ∀ t call, s.control.callOf t = some call → call.executionId ∈ s.drawn
  distinct : ∀ t t' call call', s.control.callOf t = some call → s.control.callOf t' = some call' →
    call.executionId = call'.executionId → t = t'
  sent : ∀ n rpc, s.rpcs.lookup n = some rpc →
    ∃ call, s.control.callOf rpc.taskId = some call ∧ rpc.IsOf carried call
  arrived : ∀ endpoint n e t, identity? (s.workers endpoint) n = some (e, t) →
    ∃ rpc call, s.rpcs.lookup n = some rpc ∧ rpc.endpoint = endpoint ∧ rpc.taskId = t ∧
      s.control.callOf t = some call ∧ call.executionId = e ∧
      ∃ decoded, decodeLaunch (s.workers endpoint).registry rpc.task = .ok decoded
  undecoded : ∀ endpoint n status, (s.workers endpoint).undecoded.lookup n = some status →
    ∃ rpc, s.rpcs.lookup n = some rpc ∧ rpc.endpoint = endpoint ∧
      decodeLaunch (s.workers endpoint).registry rpc.task = .error status
  waiting : ∀ t attempt n, s.dispatches.lookup t = some (.waiting attempt n) →
    (∃ call, s.control.phase t = .published call) ∧
      ∃ rpc, s.rpcs.lookup n = some rpc ∧ rpc.taskId = t

theorem traced_initial : Traced carried (.initial config) where
  workers endpoint := WorkerService.ledger_initial _ _ _ _
  drawn t call h := by cases h
  distinct t t' call call' h := by cases h
  sent n rpc h := by simp [State.initial] at h
  arrived endpoint n e t h := by
    simp [State.initial, WorkerConfig.boot, identity?, WorkerService.State.initial] at h
  undecoded endpoint n status h := by
    simp [State.initial, WorkerConfig.boot, WorkerService.State.initial] at h
  waiting t attempt n h := by simp [State.initial] at h

/-! ## What each step does -/

/-- What a step does to the calls, the requests and the workers. -/
inductive Effect (carried : ResourceSet → Except Status ResourceSet) (s : State) :
    Action → State → Prop where
  | control {a control} (hreturn : ∀ t status, a ≠ .submitDispatched t status)
      (hreserve : ∀ t e hasOut submission, a ≠ .submitReserve t e hasOut submission)
      (hstep : ControlSystem.step s.control a = some control) :
      Effect carried s (.control a) { s with control := control }
  | reserve {t e hasOut submission control} (hnew : e ∉ s.drawn)
      (hstep : ControlSystem.step s.control (.submitReserve t e hasOut submission) =
        some control) :
      Effect carried s (.control (.submitReserve t e hasOut submission))
        { s with control := control, drawn := e :: s.drawn }
  | send {a n attempt rpc call} (ha : ∀ endpoint b, a ≠ .worker endpoint b)
      (hphase : s.control.phase rpc.taskId = .published call) (hnew : s.rpcs.lookup n = none)
      (hof : rpc.IsOf carried call) : Effect carried s a (s.sendLaunch attempt n rpc)
  | deliver {n rpc worker} (hrpc : s.rpcs.lookup n = some rpc)
      (hstep : WorkerService.step (s.workers rpc.endpoint) (.launchBegin n rpc.task) =
        some worker) :
      Effect carried s (.deliver n) { s.setWorker rpc.endpoint worker with
        rpcs := s.rpcs.insert n { rpc with delivered := true } }
  | answered {t attempt n rpc status control}
      (hwaiting : s.dispatches.lookup t = some (.waiting attempt n))
      (hrpc : s.rpcs.lookup n = some rpc)
      (hanswer : answer? (s.workers rpc.endpoint) n = some status)
      (hstep : ControlSystem.step s.control (.submitDispatched t status.fromProto) =
        some control) :
      Effect carried s (.reply t)
        { s with control := control, dispatches := s.dispatches.insert t .answered }
  | gaveUp {t code message n' attempt n status control}
      (hwaiting : s.dispatches.lookup t = some (.waiting attempt n))
      (hfailure : NodeManager.afterFailure attempt code message = some status)
      (hstep : ControlSystem.step s.control (.submitDispatched t status) = some control) :
      Effect carried s (.fail t code message n')
        { s with control := control, dispatches := s.dispatches.insert t .gaveUp }
  | worker {endpoint a worker} (ha : ∀ n task, a ≠ .launchBegin n task)
      (hstep : WorkerService.step (s.workers endpoint) a = some worker) :
      Effect carried s (.worker endpoint a) (s.setWorker endpoint worker)

variable {s u : State} {a : Action}

theorem effect (h : step carried s a = some u) (hi : Traced carried s) : Effect carried s a u := by
  cases a with
  | control a =>
    simp only [step, controlStep] at h
    split at h
    · cases h
    · split at h
      · cases h
      · rename_i hnew
        obtain ⟨control, hstep, rfl⟩ := Option.map_eq_some_iff.mp h
        exact .reserve hnew hstep
    · rename_i hreturn hreserve
      obtain ⟨control, hstep, rfl⟩ := Option.map_eq_some_iff.mp h
      exact .control (fun t status he => hreturn t status he)
        (fun t e hasOut submission he => hreserve t e hasOut submission he) hstep
  | dispatch t n =>
    simp only [step] at h
    split at h
    · rename_i call hphase _ hnew
      simp only [dispatchBegin] at h
      split at h
      · cases h
        exact .send (by simp) hphase hnew ⟨rfl, rfl⟩
      · rename_i hchecked
        exact absurd rfl hchecked
    · cases h
  | deliver n =>
    simp only [step] at h
    split at h
    · rename_i rpc hrpc
      split at h
      · cases h
      · obtain ⟨worker, hstep, rfl⟩ := Option.map_eq_some_iff.mp h
        exact .deliver hrpc hstep
    · cases h
  | reply t =>
    simp only [step] at h
    split at h
    · rename_i attempt n hwaiting
      split at h
      · rename_i rpc hrpc
        split at h
        · rename_i status hanswer
          obtain ⟨control, hstep, rfl⟩ := Option.map_eq_some_iff.mp h
          exact .answered hwaiting hrpc hanswer hstep
        · cases h
      · cases h
    · cases h
  | fail t code message n' =>
    simp only [step] at h
    split at h
    · rename_i attempt n hwaiting
      split at h
      · rename_i status hfailure
        obtain ⟨control, hstep, rfl⟩ := Option.map_eq_some_iff.mp h
        exact .gaveUp hwaiting hfailure hstep
      · split at h
        · rename_i rpc hrpc hnew
          cases h
          obtain ⟨⟨call, hphase⟩, rpc', hrpc', rfl⟩ := hi.waiting t attempt n hwaiting
          rw [hrpc] at hrpc'
          cases hrpc'
          obtain ⟨call', hcall, hof⟩ := hi.sent n rpc hrpc
          have hsame : call' = call := by
            rw [ControlSystem.State.callOf, hphase] at hcall
            exact (Option.some.inj hcall).symm
          subst hsame
          exact .send (by simp) hphase hnew hof
        · cases h
    · cases h
  | worker endpoint a =>
    simp only [step, workerStep] at h
    split at h
    · cases h
    · rename_i ha
      obtain ⟨worker, hstep, rfl⟩ := Option.map_eq_some_iff.mp h
      exact .worker (fun n task he => ha n task he) hstep

/-- A step of the control plane in which nothing is reserved keeps all calls. -/
theorem callOf_same {control control' : ControlSystem.State} {b : ControlSystem.Action}
    (hstep : ControlSystem.step control b = some control')
    (hreserve : ∀ t e hasOut submission, b ≠ .submitReserve t e hasOut submission) (t : TaskID) :
    control'.callOf t = control.callOf t := by
  have htask := ControlSystem.step_task hstep t
  cases hcall : control.callOf t with
  | some call => exact htask.callOf_keep hcall
  | none =>
    cases hcall' : control'.callOf t with
    | none => rfl
    | some call =>
      obtain hbefore | ⟨-, hasOut, ha⟩ := htask.callOf_before hcall'
      · rw [hcall] at hbefore
        cases hbefore
      · exact absurd ha (hreserve _ _ _ _)

theorem callOf_keep (h : Effect carried s a u) {t : TaskID} {call : SubmitCall}
    (hcall : s.control.callOf t = some call) : u.control.callOf t = some call := by
  cases h with
  | control _ _ hstep | reserve _ hstep | answered _ _ _ hstep | gaveUp _ _ hstep =>
    exact (ControlSystem.step_task hstep t).callOf_keep hcall
  | send | deliver | worker => exact hcall

/-- A call is there already, or it reserves a node in this step and its execution is new. -/
theorem callOf_before (h : Effect carried s a u) {t : TaskID} {call : SubmitCall}
    (hcall : u.control.callOf t = some call) : s.control.callOf t = some call ∨
      s.control.callOf t = none ∧ call.executionId ∉ s.drawn ∧
        u.drawn = call.executionId :: s.drawn ∧ ∀ t', t' ≠ t →
          u.control.callOf t' = s.control.callOf t' := by
  cases h with
  | control _ hreserve hstep => exact .inl (callOf_same hstep hreserve t ▸ hcall)
  | answered _ _ _ hstep | gaveUp _ _ hstep =>
    exact .inl (callOf_same hstep (by simp) t ▸ hcall)
  | send | deliver | worker => exact .inl hcall
  | @reserve t₀ e hasOut submission control hnew hstep =>
    obtain hbefore | ⟨hunused, hasOut', ha⟩ :=
      (ControlSystem.step_task hstep t).callOf_before hcall
    · exact .inl hbefore
    · cases ha
      refine .inr ⟨by rw [ControlSystem.State.callOf, hunused]; rfl, hnew, rfl, ?_⟩
      intro t' ht'
      cases hcall' : s.control.callOf t' with
      | some call' => exact (ControlSystem.step_task hstep t').callOf_keep hcall'
      | none =>
        cases hcontrol : control.callOf t' with
        | none => rfl
        | some call' =>
          obtain hbefore | ⟨-, hasOut', ha⟩ :=
            (ControlSystem.step_task hstep t').callOf_before hcontrol
          · rw [hcall'] at hbefore
            cases hbefore
          · simp only [ControlSystem.Action.submitReserve.injEq] at ha
            exact absurd ha.1.symm ht'

/-- A request keeps all but its mark of delivery. -/
structure SameRpc (rpc rpc' : Rpc) : Prop where
  taskId : rpc'.taskId = rpc.taskId
  endpoint : rpc'.endpoint = rpc.endpoint
  task : rpc'.task = rpc.task

theorem SameRpc.refl (rpc : Rpc) : SameRpc rpc rpc := ⟨rfl, rfl, rfl⟩

theorem rpc_keep (h : Effect carried s a u) {n : Nat} {rpc : Rpc}
    (hrpc : s.rpcs.lookup n = some rpc) :
    ∃ rpc', u.rpcs.lookup n = some rpc' ∧ SameRpc rpc rpc' := by
  cases h with
  | @send a m attempt rpc' call ha hphase hnew hof =>
    refine ⟨rpc, ?_, .refl rpc⟩
    simp only [State.sendLaunch, UnorderedMap.lookup_insert_eq]
    rw [if_neg]
    · exact hrpc
    · rintro rfl
      rw [hrpc] at hnew
      cases hnew
  | @deliver m rpc₀ worker hrpc₀ hstep =>
    simp only [UnorderedMap.lookup_insert_eq]
    split
    · rename_i hn
      subst hn
      rw [hrpc] at hrpc₀
      cases hrpc₀
      exact ⟨_, rfl, rfl, rfl, rfl⟩
    · exact ⟨rpc, hrpc, .refl rpc⟩
  | control | reserve | answered | gaveUp | worker => exact ⟨rpc, hrpc, .refl rpc⟩

theorem rpc_before (h : Effect carried s a u) {n : Nat} {rpc : Rpc}
    (hrpc : u.rpcs.lookup n = some rpc) :
    (∃ rpc', s.rpcs.lookup n = some rpc' ∧ SameRpc rpc' rpc) ∨
      ∃ call, s.control.phase rpc.taskId = .published call ∧ rpc.IsOf carried call ∧
        s.rpcs.lookup n = none := by
  cases h with
  | @send a m attempt rpc' call ha hphase hnew hof =>
    simp only [State.sendLaunch, UnorderedMap.lookup_insert_eq] at hrpc
    split at hrpc
    · rename_i hn
      cases hrpc
      exact .inr ⟨call, hphase, hof, hn ▸ hnew⟩
    · exact .inl ⟨rpc, hrpc, .refl rpc⟩
  | @deliver m rpc₀ worker hrpc₀ hstep =>
    simp only [UnorderedMap.lookup_insert_eq] at hrpc
    split at hrpc
    · rename_i hn
      cases hrpc
      exact .inl ⟨rpc₀, hn ▸ hrpc₀, rfl, rfl, rfl⟩
    · exact .inl ⟨rpc, hrpc, .refl rpc⟩
  | control | reserve | answered | gaveUp | worker => exact .inl ⟨rpc, hrpc, .refl rpc⟩

theorem SameRpc.isOf {rpc rpc' : Rpc} (h : SameRpc rpc rpc') {call : SubmitCall}
    (hof : rpc.IsOf carried call) : rpc'.IsOf carried call :=
  ⟨h.endpoint.trans hof.1, by rw [h.task, h.taskId]; exact hof.2⟩

/-- The worker behind an endpoint takes a step of its own, or its state does not change. -/
theorem worker_step (h : Effect carried s a u) (endpoint : String) :
    u.workers endpoint = s.workers endpoint ∧
      (∀ event, Event.mk endpoint event ∉ events s a) ∨
    ∃ b, WorkerService.step (s.workers endpoint) b = some (u.workers endpoint) ∧
      (a = .worker endpoint b ∨
        ∃ n rpc, a = .deliver n ∧ s.rpcs.lookup n = some rpc ∧ rpc.endpoint = endpoint ∧
          b = .launchBegin n rpc.task) := by
  cases h with
  | control | reserve | answered | gaveUp => exact .inl ⟨rfl, by simp [events]⟩
  | send ha =>
    refine .inl ⟨rfl, ?_⟩
    cases a with
    | worker endpoint' b => exact absurd rfl (ha endpoint' b)
    | control | dispatch | deliver | reply | fail => simp [events]
  | @deliver n rpc worker hrpc hstep =>
    by_cases he : endpoint = rpc.endpoint
    · subst he
      refine .inr ⟨_, ?_, .inr ⟨n, rpc, rfl, hrpc, rfl, rfl⟩⟩
      simpa [State.setWorker] using hstep
    · exact .inl ⟨by simp [State.setWorker, he], by simp [events]⟩
  | @worker endpoint' b worker hb hstep =>
    by_cases he : endpoint = endpoint'
    · subst he
      refine .inr ⟨b, ?_, .inl rfl⟩
      simpa [State.setWorker] using hstep
    · refine .inl ⟨by simp [State.setWorker, he], ?_⟩
      simp [events, Ne.symm he]

/-! ## The invariant is kept -/

theorem step_workers (h : Effect carried s a u) (hi : Traced carried s) (endpoint : String) :
    WorkerService.Ledger (u.workers endpoint) := by
  obtain ⟨hsame, -⟩ | ⟨b, hstep, -⟩ := worker_step h endpoint
  · rw [hsame]
    exact hi.workers endpoint
  · exact WorkerService.step_ledger hstep (hi.workers endpoint)

theorem step_registry (h : Effect carried s a u) (hi : Traced carried s) (endpoint : String) :
    (u.workers endpoint).registry = (s.workers endpoint).registry := by
  obtain ⟨hsame, -⟩ | ⟨b, hstep, -⟩ := worker_step h endpoint
  · rw [hsame]
  · exact WorkerService.step_registry (WorkerService.effect hstep (hi.workers endpoint).claims)

/-- A request at a worker was there before, or it arrives in this step. -/
theorem identity_before (h : Effect carried s a u) (hi : Traced carried s) {endpoint : String}
    {n : Nat} {e : ExecutionID} {t : TaskID}
    (hid : identity? (u.workers endpoint) n = some (e, t)) :
    identity? (s.workers endpoint) n = some (e, t) ∨
      ∃ rpc call, s.rpcs.lookup n = some rpc ∧ rpc.endpoint = endpoint ∧ rpc.taskId = t ∧
        s.control.callOf t = some call ∧ call.executionId = e ∧
        ∃ decoded, decodeLaunch (s.workers endpoint).registry rpc.task = .ok decoded := by
  obtain ⟨hsame, -⟩ | ⟨b, hstep, hb⟩ := worker_step h endpoint
  · rw [hsame] at hid
    exact .inl hid
  · have heffect := WorkerService.effect hstep (hi.workers endpoint).claims
    obtain rfl | ⟨m, rpc, rfl, hrpc, rfl, rfl⟩ := hb
    · cases h with
      | worker hb _ =>
        rw [(WorkerService.step_identity_other heffect hb).2] at hid
        exact .inl hid
      | send ha => exact absurd rfl (ha endpoint b)
    · obtain ⟨e', spec, handler, hdecode, hu⟩ | ⟨status, hdecode, hu⟩ :=
        WorkerService.launchBegin_cases hstep
      · rw [hu] at hid
        simp only [identity?, WorkerService.lookup_setLaunch] at hid
        split at hid
        · rename_i hn
          subst hn
          cases hid
          obtain ⟨call, hcall, -, htask⟩ := hi.sent n rpc hrpc
          obtain ⟨rfl, ht⟩ := decodeLaunch_descriptor (htask ▸ hdecode)
          exact .inr ⟨rpc, call, hrpc, rfl, ht.symm, ht ▸ hcall, rfl, _, hdecode⟩
        · exact .inl hid
      · rw [hu] at hid
        exact .inl hid

theorem undecoded_before (h : Effect carried s a u) (hi : Traced carried s) {endpoint : String}
    {n : Nat} {status : Status} (hl : (u.workers endpoint).undecoded.lookup n = some status) :
    (s.workers endpoint).undecoded.lookup n = some status ∨
      ∃ rpc, s.rpcs.lookup n = some rpc ∧ rpc.endpoint = endpoint ∧
        decodeLaunch (s.workers endpoint).registry rpc.task = .error status := by
  obtain ⟨hsame, -⟩ | ⟨b, hstep, hb⟩ := worker_step h endpoint
  · rw [hsame] at hl
    exact .inl hl
  · have heffect := WorkerService.effect hstep (hi.workers endpoint).claims
    obtain rfl | ⟨m, rpc, rfl, hrpc, rfl, rfl⟩ := hb
    · cases h with
      | worker hb _ =>
        rw [(WorkerService.step_identity_other heffect hb).1] at hl
        exact .inl hl
      | send ha => exact absurd rfl (ha endpoint b)
    · obtain ⟨e', spec, handler, hdecode, hu⟩ | ⟨status', hdecode, hu⟩ :=
        WorkerService.launchBegin_cases hstep
      · rw [hu] at hl
        exact .inl hl
      · rw [hu] at hl
        simp only [UnorderedMap.lookup_insert_eq] at hl
        split at hl
        · rename_i hn
          subst hn
          cases hl
          exact .inr ⟨rpc, hrpc, rfl, hdecode⟩
        · exact .inl hl

/-- A `DispatchTask` that waits after the step has just sent its request, or was waiting. -/
theorem waiting_before (h : Effect carried s a u) {t : TaskID} {attempt n : Nat}
    (hw : u.dispatches.lookup t = some (.waiting attempt n)) :
    (s.dispatches.lookup t = some (.waiting attempt n) ∧
      ∀ call, s.control.phase t = .published call → u.control.phase t = .published call) ∨
    (∃ call, u.control.phase t = .published call) ∧
      ∃ rpc, u.rpcs.lookup n = some rpc ∧ rpc.taskId = t := by
  cases h with
  | control hreturn _ hstep =>
    exact .inl ⟨hw, fun call hphase =>
      (ControlSystem.step_task hstep t).published_keep hphase (hreturn t)⟩
  | reserve _ hstep =>
    exact .inl ⟨hw, fun call hphase =>
      (ControlSystem.step_task hstep t).published_keep hphase (by simp)⟩
  | @send _ m attempt' rpc call _ hphase _ _ =>
    simp only [State.sendLaunch, UnorderedMap.lookup_insert_eq] at hw
    split at hw
    · rename_i ht
      cases hw
      exact .inr ⟨⟨call, ht ▸ hphase⟩, rpc, by simp [State.sendLaunch], ht.symm⟩
    · exact .inl ⟨hw, fun call hphase => hphase⟩
  | @answered t' _ _ _ _ _ _ _ _ hstep | @gaveUp t' _ _ _ _ _ _ _ _ _ hstep =>
    simp only [UnorderedMap.lookup_insert_eq] at hw
    split at hw
    · cases hw
    · rename_i ht
      refine .inl ⟨hw, fun call hphase => ?_⟩
      refine (ControlSystem.step_task hstep t).published_keep hphase (fun status he => ?_)
      cases he
      exact ht rfl
  | deliver | worker => exact .inl ⟨hw, fun call hphase => hphase⟩

theorem step_traced (h : Effect carried s a u) (hi : Traced carried s) : Traced carried u where
  workers := step_workers h hi
  drawn t call hcall := by
    obtain hbefore | ⟨-, -, hdrawn, -⟩ := callOf_before h hcall
    · have hmem := hi.drawn t call hbefore
      cases h with
      | reserve => exact List.mem_cons_of_mem _ hmem
      | control | send | deliver | answered | gaveUp | worker => exact hmem
    · rw [hdrawn]
      exact List.mem_cons_self
  distinct t t' call call' hcall hcall' hsame := by
    -- an execution that is drawn in this step belongs to no call yet
    have fresh : ∀ {t t' : TaskID} {call call' : SubmitCall},
        s.control.callOf t = none → call.executionId ∉ s.drawn →
        (∀ t', t' ≠ t → u.control.callOf t' = s.control.callOf t') →
        u.control.callOf t' = some call' → call.executionId = call'.executionId → t = t' := by
      intro t t' call call' hnone hnew hother hcall' hsame
      by_contra hne
      rw [hother t' (Ne.symm hne)] at hcall'
      exact hnew (hsame ▸ hi.drawn t' call' hcall')
    obtain hbefore | ⟨hnone, hnew, -, hother⟩ := callOf_before h hcall
    · obtain hbefore' | ⟨hnone', hnew', -, hother'⟩ := callOf_before h hcall'
      · exact hi.distinct t t' call call' hbefore hbefore' hsame
      · exact (fresh hnone' hnew' hother' hcall hsame.symm).symm
    · exact fresh hnone hnew hother hcall' hsame
  sent n rpc hrpc := by
    obtain ⟨rpc', hrpc', hkept⟩ | ⟨call, hphase, hof, -⟩ := rpc_before h hrpc
    · obtain ⟨call, hcall, hof⟩ := hi.sent n rpc' hrpc'
      rw [hkept.taskId]
      exact ⟨call, callOf_keep h hcall, hkept.isOf hof⟩
    · refine ⟨call, callOf_keep h ?_, hof⟩
      rw [ControlSystem.State.callOf, hphase]
      rfl
  arrived endpoint n e t hid := by
    have harrived : ∃ rpc call, s.rpcs.lookup n = some rpc ∧ rpc.endpoint = endpoint ∧
        rpc.taskId = t ∧ s.control.callOf t = some call ∧ call.executionId = e ∧
        ∃ decoded, decodeLaunch (s.workers endpoint).registry rpc.task = .ok decoded := by
      obtain hbefore | hnew := identity_before h hi hid
      · exact hi.arrived endpoint n e t hbefore
      · exact hnew
    obtain ⟨rpc, call, hrpc, hendpoint, htask, hcall, hexecution, decoded, hdecode⟩ := harrived
    obtain ⟨rpc', hrpc', hkept⟩ := rpc_keep h hrpc
    refine ⟨rpc', call, hrpc', hkept.endpoint.trans hendpoint, hkept.taskId.trans htask,
      callOf_keep h hcall, hexecution, decoded, ?_⟩
    rw [step_registry h hi, hkept.task]
    exact hdecode
  undecoded endpoint n status hl := by
    have harrived : ∃ rpc, s.rpcs.lookup n = some rpc ∧ rpc.endpoint = endpoint ∧
        decodeLaunch (s.workers endpoint).registry rpc.task = .error status := by
      obtain hbefore | hnew := undecoded_before h hi hl
      · exact hi.undecoded endpoint n status hbefore
      · exact hnew
    obtain ⟨rpc, hrpc, hendpoint, hdecode⟩ := harrived
    obtain ⟨rpc', hrpc', hkept⟩ := rpc_keep h hrpc
    refine ⟨rpc', hrpc', hkept.endpoint.trans hendpoint, ?_⟩
    rw [step_registry h hi, hkept.task]
    exact hdecode
  waiting t attempt n hw := by
    obtain ⟨hbefore, hphase⟩ | hnew := waiting_before h hw
    · obtain ⟨⟨call, hcall⟩, rpc, hrpc, htask⟩ := hi.waiting t attempt n hbefore
      obtain ⟨rpc', hrpc', hkept⟩ := rpc_keep h hrpc
      exact ⟨⟨call, hphase call hcall⟩, rpc', hrpc', hkept.taskId.trans htask⟩
    · exact hnew

end Cluster

end AgentRuntime
