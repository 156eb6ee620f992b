import AgentRuntime.Cluster.Rollback
import AgentRuntime.Service.Contents

/-!
# From the submission to the handler

What the workers register and execute is what the clients have submitted, at the
node that was reserved for it. A task is executed at most once in the cluster, however
often its request is delivered.
-/
namespace AgentRuntime

namespace Cluster

open ControlSystem (SubmitCall)
open WorkerService (contents? Sourced)

variable {carried : ResourceSet → Except Status ResourceSet} {config : String → WorkerConfig}

/-! ## The wire -/

/-- The spec and the handler of a worker say what the submission says. -/
structure SameTask (carried : ResourceSet → Except Status ResourceSet) (t : TaskID)
    (submission : SubmitTaskSpec) (spec : TaskSpec) (handler : TaskHandler) : Prop where
  id : spec.id = t
  tenantId : spec.tenantId = submission.tenantId
  agentId : spec.agentId = submission.agentId
  name : spec.name = submission.name
  inputs : spec.inputs = []
  resources : carried submission.resources.resources = .ok spec.resources.resources
  handler : handler = some ⟨submission.entrypoint, submission.payload, submission.payloadMediaType⟩

/-- What a worker makes of a descriptor that it can decode. -/
theorem decodeLaunch_fields {registry : HandlerRegistry} {task : TaskDescriptor} {e : ExecutionID}
    {spec : TaskSpec} {handler : TaskHandler}
    (h : decodeLaunch registry task = .ok (e, spec, handler)) :
    StrongID.fromProto task.taskId = .ok spec.id ∧
      StrongID.fromProto task.tenantId = .ok spec.tenantId ∧
      StrongID.fromProto task.agentId = .ok spec.agentId ∧ spec.name = task.name ∧
      spec.inputs = [] ∧ task.resources = .ok spec.resources.resources ∧
      handler = some ⟨task.entrypoint, task.payload, task.payloadMediaType⟩ := by
  obtain ⟨t, htask, h⟩ := bind_eq_ok h
  obtain ⟨tenant, htenant, h⟩ := bind_eq_ok h
  obtain ⟨agent, hagent, h⟩ := bind_eq_ok h
  obtain ⟨execution, -, h⟩ := bind_eq_ok h
  simp only [] at h
  split at h
  · cases h
  · obtain ⟨resources, hresources, h⟩ := bind_eq_ok h
    split at h
    · cases h
    · obtain ⟨registered, hregistered, h⟩ := bind_eq_ok h
      have hname : task.entrypoint = registered := by
        simp only [HandlerRegistry.resolve] at hregistered
        split at hregistered
        · exact Except.ok.inj hregistered
        · cases hregistered
      cases h
      exact ⟨htask, htenant, hagent, rfl, rfl, hresources, by rw [hname]⟩

theorem eq_of_fromProto_toProto {tag : IdTag} {id id' : StrongID tag}
    (h : StrongID.fromProto id.toProto = .ok id') : id' = id := by
  rw [StrongID.fromProto_toProto] at h
  exact (Except.ok.inj h).symm

/-- No two ids have the same bytes. -/
theorem eq_of_toProto_eq {tag : IdTag} {id id' : StrongID tag} (h : id.toProto = id'.toProto) :
    id = id' :=
  eq_of_fromProto_toProto (h ▸ StrongID.fromProto_toProto id)

/-- A descriptor arrives as what it was made of. -/
theorem sameTask_of_decode {registry : HandlerRegistry} {t : TaskID} {executionId e : ExecutionID}
    {submission : SubmitTaskSpec} {spec : TaskSpec} {handler : TaskHandler}
    (h : decodeLaunch registry (ControlPlane.descriptor carried t executionId submission) =
      .ok (e, spec, handler)) : SameTask carried t submission spec handler := by
  obtain ⟨htask, htenant, hagent, hname, hinputs, hresources, hhandler⟩ := decodeLaunch_fields h
  exact ⟨eq_of_fromProto_toProto htask, eq_of_fromProto_toProto htenant,
    eq_of_fromProto_toProto hagent, hname, hinputs, hresources, hhandler⟩

/-! ## The requests at the workers -/

/-- What a worker has of a request is what the request carries. -/
structure Delivered (s : State) : Prop where
  arrived : ∀ endpoint n e spec handler,
    contents? (s.workers endpoint) n = some (e, spec, handler) →
      ∃ rpc, s.rpcs.lookup n = some rpc ∧ rpc.endpoint = endpoint ∧
        decodeLaunch (s.workers endpoint).registry rpc.task = .ok (e, spec, handler)
  sourced : ∀ endpoint, Sourced (s.workers endpoint)

theorem delivered_initial : Delivered (.initial config) where
  arrived endpoint n e spec handler h := by
    simp [State.initial, WorkerConfig.boot, contents?, WorkerService.State.initial] at h
  sourced _ := WorkerService.sourced_initial

variable {s u : State} {a : Action}

theorem step_delivered (h : Effect carried s a u) (hi : Traced carried s) (hd : Delivered s) :
    Delivered u where
  arrived endpoint n e spec handler hc := by
    have harrived : ∃ rpc, s.rpcs.lookup n = some rpc ∧ rpc.endpoint = endpoint ∧
        decodeLaunch (s.workers endpoint).registry rpc.task = .ok (e, spec, handler) := by
      obtain ⟨hsame, -⟩ | ⟨b, hb, ha⟩ := worker_step h endpoint
      · exact hd.arrived endpoint n e spec handler (hsame ▸ hc)
      · have heffect := WorkerService.effect hb (hi.workers endpoint).claims
        obtain hsame | ⟨-, task, e', spec', handler', rfl, hdecode, hnew⟩ :=
          WorkerService.step_contents heffect hb n
        · exact hd.arrived endpoint n e spec handler (hsame ▸ hc)
        · -- the request arrives in this step
          rw [hnew] at hc
          cases hc
          obtain rfl | ⟨m, rpc, rfl, hrpc, hendpoint, hlaunch⟩ := ha
          · cases h with
            | worker ha _ => exact absurd rfl (ha n task)
            | send ha => exact absurd rfl (ha _ _)
          · cases hlaunch
            exact ⟨rpc, hrpc, hendpoint, hdecode⟩
    obtain ⟨rpc, hrpc, hendpoint, hdecode⟩ := harrived
    obtain ⟨rpc', hrpc', hkept⟩ := rpc_keep h hrpc
    refine ⟨rpc', hrpc', hkept.endpoint.trans hendpoint, ?_⟩
    rw [step_registry h hi, hkept.task]
    exact hdecode
  sourced endpoint := by
    obtain ⟨hsame, -⟩ | ⟨b, hb, -⟩ := worker_step h endpoint
    · rw [hsame]
      exact hd.sourced endpoint
    · have hledger := hi.workers endpoint
      exact WorkerService.step_sourced (WorkerService.effect hb hledger.claims) hb hledger
        (hd.sourced endpoint)

/-- What a worker has of a request was submitted for its node. -/
theorem Delivered.submitted (hd : Delivered s) (hi : Traced carried s) {endpoint : String} {n : Nat}
    {e : ExecutionID} {spec : TaskSpec} {handler : TaskHandler}
    (hc : contents? (s.workers endpoint) n = some (e, spec, handler)) :
    ∃ call, s.control.callOf spec.id = some call ∧ call.node.workerEndpoint = endpoint ∧
      SameTask carried spec.id call.submission spec handler := by
  obtain ⟨rpc, hrpc, hendpoint, hdecode⟩ := hd.arrived endpoint n e spec handler hc
  obtain ⟨call, hcall, hof⟩ := hi.sent n rpc hrpc
  rw [hof.2] at hdecode
  have hsame := sameTask_of_decode hdecode
  rw [← hsame.id] at hcall hsame
  exact ⟨call, hcall, hof.1.symm.trans hendpoint, hsame⟩

/-- What a worker has in a record was submitted for its node. -/
theorem Delivered.record (hd : Delivered s) (hi : Traced carried s) {endpoint : String} {t : TaskID}
    {record : TaskRecord} (hl : (s.workers endpoint).runtime.record t = some record) :
    ∃ call, s.control.callOf t = some call ∧ call.node.workerEndpoint = endpoint ∧
      SameTask carried t call.submission record.spec record.handler := by
  obtain ⟨n, e, hc⟩ := (hd.sourced endpoint).records t record hl
  have hid := ((hi.workers endpoint).sound.inv.agreement.records t record hl).1
  rw [← hid]
  exact hd.submitted hi hc

/-- So is what a worker thread has in its hands. -/
theorem Delivered.item (hd : Delivered s) (hi : Traced carried s) {endpoint : String} {w : WorkerID}
    {work : WorkItem} {x : ExecutionState}
    (hitem : ((s.workers endpoint).runtime.worker w).item? = some (work, x)) :
    ∃ call, s.control.callOf work.spec.id = some call ∧ call.node.workerEndpoint = endpoint ∧
      SameTask carried work.spec.id call.submission work.spec work.handler := by
  obtain ⟨record, hl, hspec, hhandler⟩ :=
    (hi.workers endpoint).sound.inv.agreement.items w work x hitem
  rw [← hspec, ← hhandler]
  rw [← hspec] at hl
  exact hd.record hi hl

/-! ## The result -/

/-- How often a handler is called for the task, at all workers together. -/
def invocations (seen : List Event) (t : TaskID) : Nat :=
  seen.countP fun ev => ev.event = .runtime (.invoked t)

/-- What the workers have and do of the tasks that were submitted. -/
structure RunsAsSubmitted (carried : ResourceSet → Except Status ResourceSet) (seen : List Event)
    (s : State) : Prop where
  records : ∀ endpoint t record, (s.workers endpoint).runtime.record t = some record →
    ∃ call, s.control.callOf t = some call ∧ call.node.workerEndpoint = endpoint ∧
      SameTask carried t call.submission record.spec record.handler
  /-- Also what a worker thread has in its hands. -/
  items : ∀ endpoint w work x,
    ((s.workers endpoint).runtime.worker w).item? = some (work, x) →
      ∃ call, s.control.callOf work.spec.id = some call ∧ call.node.workerEndpoint = endpoint ∧
        SameTask carried work.spec.id call.submission work.spec work.handler
  invoked : ∀ endpoint t, ⟨endpoint, .runtime (.invoked t)⟩ ∈ seen →
    ∃ call, s.control.callOf t = some call ∧ call.node.workerEndpoint = endpoint
  once : ∀ t, invocations seen t ≤ 1

/-- Events that all come from one endpoint are counted there. -/
theorem countP_at (endpoint : String) (event : WorkerService.Event) (seen : List Event)
    (h : ∀ ev ∈ seen, ev.event = event → ev.endpoint = endpoint) :
    seen.countP (fun ev => ev.event = event) = (seen.filterMap (Event.at? endpoint)).count event := by
  induction seen with
  | nil => rfl
  | cons ev seen ih =>
    have hrest := ih fun ev' hmem => h ev' (List.mem_cons_of_mem _ hmem)
    rw [List.countP_cons, List.filterMap_cons, hrest]
    by_cases hev : ev.event = event
    · have hat : Event.at? endpoint ev = some event := by
        rw [Event.at?, if_pos (h ev List.mem_cons_self hev), hev]
      simp [hat, hev]
    · by_cases hend : ev.endpoint = endpoint
      · simp [Event.at?, hend, hev]
      · simp [Event.at?, hend, hev]

variable {as : List Action}

theorem delivered_run (h : Run.run (step carried) as (.initial config) = some s) :
    Traced carried s ∧ Delivered s := by
  have hkept : ∀ (s : State) (a : Action) (u : State), Traced carried s ∧ Delivered s →
      step carried s a = some u → Traced carried u ∧ Delivered u := by
    rintro s a u ⟨hi, hd⟩ hstep
    have heffect := effect hstep hi
    exact ⟨step_traced heffect hi, step_delivered heffect hi hd⟩
  exact Run.invariant_run hkept h ⟨traced_initial, delivered_initial⟩

/-- A task is executed at the node that was reserved for it. -/
theorem invoked_at (h : Run.run (step carried) as (.initial config) = some s) {endpoint : String}
    {t : TaskID} (hmem : ⟨endpoint, .runtime (.invoked t)⟩ ∈ observedIn carried as (.initial config)) :
    ∃ call, s.control.callOf t = some call ∧ call.node.workerEndpoint = endpoint := by
  obtain ⟨bs, hbs, hseen⟩ := worker_run h endpoint
  have hmem' : .runtime (.invoked t) ∈ WorkerService.observedIn bs (config endpoint).boot := by
    rw [hseen, List.mem_filterMap]
    exact ⟨_, hmem, by simp [Event.at?]⟩
  obtain ⟨n, e, hid, -⟩ := WorkerService.accepted_of_invoked hbs hmem'
  obtain ⟨hi, -⟩ := delivered_run h
  obtain ⟨rpc, call, hrpc, hendpoint, htask, hcall, -⟩ := hi.arrived endpoint n e t hid
  obtain ⟨call', hcall', hof⟩ := hi.sent n rpc hrpc
  rw [htask, hcall] at hcall'
  cases hcall'
  exact ⟨call, hcall, hof.1.symm.trans hendpoint⟩

theorem invocations_le_one (h : Run.run (step carried) as (.initial config) = some s) (t : TaskID) :
    invocations (observedIn carried as (.initial config)) t ≤ 1 := by
  by_cases hany : ∃ ev ∈ observedIn carried as (.initial config), ev.event = .runtime (.invoked t)
  · obtain ⟨⟨endpoint, _⟩, hmem, rfl⟩ := hany
    obtain ⟨call, hcall, hendpoint⟩ := invoked_at h hmem
    have hall : ∀ ev ∈ observedIn carried as (.initial config),
        ev.event = .runtime (.invoked t) → ev.endpoint = endpoint := by
      rintro ⟨endpoint', _⟩ hmem' rfl
      obtain ⟨call', hcall', hendpoint'⟩ := invoked_at h hmem'
      rw [hcall] at hcall'
      cases hcall'
      exact hendpoint'.symm.trans hendpoint
    obtain ⟨bs, hbs, hseen⟩ := worker_run h endpoint
    rw [invocations, countP_at endpoint _ _ hall, ← hseen]
    exact WorkerService.invocations_le_one hbs t
  · have hzero : invocations (observedIn carried as (.initial config)) t = 0 := by
      rw [invocations, List.countP_eq_zero]
      intro ev hmem hev
      exact hany ⟨ev, hmem, by simpa using hev⟩
    omega

namespace Sample

/-- The request is delivered twice, and the task is executed. -/
def executed : List Action :=
  submit ++ accept 0 ++ [expire 1, .deliver 1, .worker endpoint (.launchClaim 1)] ++
    (LocalSystem.Action.loop .wait :: LocalSystem.Sample.schedule (.ofByte 1) ++
      LocalSystem.Sample.execute.take 4).map (fun a => .worker endpoint (.runtime a))

end Sample

end Cluster

end AgentRuntime
