import AgentRuntime.Cluster.Deliveries

/-!
# A rollback takes back only what was not admitted

`SubmitTask` erases the record and releases the node when `DispatchTask` returns
an error. An error that the worker has answered is a refusal. A failure of the
transport says nothing about the worker, and is taken for one: it is one only if
each request of the call is lost, or refused by the worker when it arrives.
-/
namespace AgentRuntime

namespace Cluster

open ControlSystem (SubmitCall)
open WorkerService (identity? Refused)
open LocalSystem (course refuses)

/-! ## The property -/

/-- A submission that fails after its task was sent was not admitted, and its handler is not
called. -/
structure NotAdmitted (seen : List Event) (s : State) : Prop where
  submission : ∀ t call, (s.control.phase t).failed? = some call → ∀ endpoint n l status,
    (s.workers endpoint).launches.lookup n = some l → l.executionId = call.executionId →
      (s.workers endpoint).runtime.submits.lookup n = some status → status.ok = false
  handler : ∀ t call, (s.control.phase t).failed? = some call → ∀ endpoint,
    ⟨endpoint, .runtime (.invoked t)⟩ ∉ seen

/-! ## When it holds -/

/-- No request of a call on which `DispatchTask` gives up, before or after, gets past the checks of
the worker: what is delivered cannot be decoded or is refused, by the check of `Enqueue` if it comes
to it. `ended` is where the run ends. -/
def failuresFinal (ended s : State) : Action → Bool
  | .worker endpoint (.runtime (.call .enqueueBegin)) =>
    match (s.workers endpoint).runtime.lifecycle with
    | some (.enqueuing n _) =>
      (s.rpcs.lookup n).all fun rpc =>
        decide (ended.dispatches.lookup rpc.taskId ≠ some .gaveUp) ||
          refuses (s.workers endpoint).runtime .enqueueBegin
    | _ => true
  | _ => true

variable {carried : ResourceSet → Except Status ResourceSet} {config : String → WorkerConfig}
  {s u : State} {a : Action}

/-! ## The invariant -/

/-- The request has got past the checks of `Submit`. -/
def State.passed (s : State) (endpoint : String) (n : Nat) : Prop :=
  (course (s.workers endpoint).runtime n).isAccepted = true ∨
    ∃ t, (s.workers endpoint).runtime.holder = some (.enqueueMark n t)

/-- No request of a call that is given up in the end has got past the checks. -/
def NonePassed (ended s : State) : Prop := ∀ n rpc, s.rpcs.lookup n = some rpc →
  ended.dispatches.lookup rpc.taskId = some .gaveUp → ¬ s.passed rpc.endpoint n

/-- The worker has refused the execution, or cannot decode its requests. -/
def Declined (carried : ResourceSet → Except Status ResourceSet) (s : State) (t : TaskID)
    (call : SubmitCall) : Prop :=
  Refused (s.workers call.node.workerEndpoint) call.executionId ∨
    ∃ status, decodeLaunch (s.workers call.node.workerEndpoint).registry
      (ControlPlane.descriptor carried t call.executionId call.submission) = .error status

/-- Why a call has failed. -/
def Excused (carried : ResourceSet → Except Status ResourceSet) (s : State) : Prop :=
  ∀ t call, (s.control.phase t).failed? = some call →
    s.dispatches.lookup t = some .gaveUp ∨ Declined carried s t call

/-- A failed call has no request that is admitted. -/
theorem not_accepted (hi : Traced carried s) (hex : Excused carried s) (hno : NonePassed s s)
    {t : TaskID} {call : SubmitCall} (hfailed : (s.control.phase t).failed? = some call)
    {endpoint : String} {n : Nat} {e : ExecutionID}
    (hid : identity? (s.workers endpoint) n = some (e, t)) :
    (course (s.workers endpoint).runtime n).isAccepted = false := by
  have hcall := ControlSystem.SubmitPhase.call?_of_failed hfailed
  obtain ⟨rpc, call', hrpc, rfl, rfl, hcall', rfl, decoded, hdecode⟩ :=
    hi.arrived endpoint n e t hid
  obtain rfl : call = call' := Option.some.inj (hcall.symm.trans hcall')
  obtain ⟨call', hcall', hendpoint, htask⟩ := hi.sent n rpc hrpc
  obtain rfl : call = call' := Option.some.inj (hcall.symm.trans hcall')
  obtain hgiven | hrefused | ⟨status, herror⟩ := hex _ call hfailed
  · by_contra haccepted
    exact hno n rpc hrpc hgiven (.inl (Bool.eq_true_of_not_eq_false haccepted))
  · rw [hendpoint] at hid ⊢
    exact (hi.workers _).not_accepted hrefused hid
  · rw [hendpoint, htask, herror] at hdecode
    cases hdecode

/-- A reply with an error says that the worker does not have the task. -/
theorem declined_of_answer (hi : Traced carried s)
    (ha : ∀ endpoint, WorkerService.Answers (s.workers endpoint)) {n : Nat} {rpc : Rpc}
    {call : SubmitCall} {status : Status} (hrpc : s.rpcs.lookup n = some rpc)
    (hcall : s.control.callOf rpc.taskId = some call)
    (hanswer : answer? (s.workers rpc.endpoint) n = some status) (hno : status.ok = false) :
    Declined carried s rpc.taskId call := by
  obtain ⟨call', hcall', hendpoint, htask⟩ := hi.sent n rpc hrpc
  rw [hcall] at hcall'
  cases hcall'
  simp only [answer?] at hanswer
  split at hanswer
  · rename_i l hl
    have hid := WorkerService.identity_of_lookup hl
    obtain ⟨rpc', call', hrpc', -, ht, hcall', he, -⟩ := hi.arrived _ _ _ _ hid
    rw [hrpc] at hrpc'
    cases hrpc'
    rw [← ht, hcall] at hcall'
    cases hcall'
    obtain hrefused | ⟨m, l', hm, hsame, hother⟩ :=
      WorkerService.refused_of_reply (hi.workers _) (ha _) hl hanswer hno
    · left
      rw [he, ← hendpoint]
      exact hrefused
    · -- no other call has this execution
      obtain ⟨rpc'', call'', -, -, -, hcall'', he'', -⟩ :=
        hi.arrived _ _ _ _ (WorkerService.identity_of_lookup hm)
      have hdistinct := hi.distinct _ _ _ _ hcall hcall'' (by rw [he, he'', hsame])
      exact absurd (hdistinct.symm.trans ht) hother
  · obtain ⟨rpc', hrpc', -, hdecode⟩ := hi.undecoded _ _ _ hanswer
    rw [hrpc] at hrpc'
    cases hrpc'
    rw [hendpoint, htask] at hdecode
    exact .inr ⟨status, hdecode⟩

theorem step_answers (h : Effect carried s a u) (hi : Traced carried s)
    (ha : ∀ endpoint, WorkerService.Answers (s.workers endpoint)) (endpoint : String) :
    WorkerService.Answers (u.workers endpoint) := by
  obtain ⟨hsame, -⟩ | ⟨b, hstep, -⟩ := worker_step h endpoint
  · rw [hsame]
    exact ha endpoint
  · have hclaims := (hi.workers endpoint).claims
    exact WorkerService.step_answers (WorkerService.effect hstep hclaims) hclaims (ha endpoint)

theorem step_declined (h : Effect carried s a u) (hi : Traced carried s) {t : TaskID}
    {call : SubmitCall} (hd : Declined carried s t call) : Declined carried u t call := by
  obtain hrefused | ⟨status, herror⟩ := hd
  · left
    obtain ⟨hsame, -⟩ | ⟨b, hstep, -⟩ := worker_step h call.node.workerEndpoint
    · rw [hsame]
      exact hrefused
    · have hledger := hi.workers call.node.workerEndpoint
      exact WorkerService.step_refused (WorkerService.effect hstep hledger.claims) hledger hrefused
  · right
    rw [step_registry h hi]
    exact ⟨status, herror⟩

/-- A request inside or through `Submit` was sent before. -/
theorem rpc_of_registered (h : Effect carried s a u) (hi : Traced carried s) {endpoint : String}
    {n : Nat} (hc : (course (u.workers endpoint).runtime n).isRegistered = true) :
    (∃ rpc, s.rpcs.lookup n = some rpc) ∧ ∃ id, identity? (s.workers endpoint) n = some id := by
  obtain ⟨⟨e, t⟩, hid⟩ : ∃ id, identity? (u.workers endpoint) n = some id := by
    by_contra hnone
    have hnone := Option.eq_none_iff_forall_ne_some.mpr fun id hid => hnone ⟨id, hid⟩
    rw [(step_workers h hi endpoint).outside hnone] at hc
    cases hc
  have hbefore : identity? (s.workers endpoint) n = some (e, t) := by
    obtain ⟨hsame, -⟩ | ⟨b, hstep, -⟩ := worker_step h endpoint
    · rwa [hsame] at hid
    · have hledger := hi.workers endpoint
      exact WorkerService.identity_before (WorkerService.effect hstep hledger.claims) hledger hid hc
  obtain ⟨rpc, _, hrpc, -⟩ := hi.arrived endpoint n e t hbefore
  exact ⟨⟨rpc, hrpc⟩, _, hbefore⟩

/-- A request has got past the checks before, or it does so at the check of `Enqueue`. -/
theorem passed_before (h : Effect carried s a u) (hi : Traced carried s) {endpoint : String}
    {n : Nat} (hpassed : u.passed endpoint n) :
    (∃ rpc, s.rpcs.lookup n = some rpc) ∧ (s.passed endpoint n ∨
      a = .worker endpoint (.runtime (.call .enqueueBegin)) ∧
        (∃ t, (s.workers endpoint).runtime.lifecycle = some (.enqueuing n t)) ∧
        refuses (s.workers endpoint).runtime .enqueueBegin = false) := by
  have hregistered : (course (u.workers endpoint).runtime n).isRegistered = true := by
    obtain haccepted | ⟨t, hholder⟩ := hpassed
    · exact LocalSystem.isRegistered_of_isAccepted haccepted
    · have hsubmitting := (step_workers h hi endpoint).sound.submitting
      have hinside : (u.workers endpoint).runtime.submitting? = some (n, .registered t) :=
        hsubmitting.inEnqueue (by rw [hholder]; rfl)
      rw [LocalSystem.course_of_submitting hsubmitting hinside]
      rfl
  obtain ⟨hrpc, ⟨e, t⟩, hid⟩ := rpc_of_registered h hi hregistered
  refine ⟨hrpc, ?_⟩
  obtain ⟨hsame, -⟩ | ⟨b, hstep, hb⟩ := worker_step h endpoint
  · rw [State.passed, hsame] at hpassed
    exact .inl hpassed
  have hledger := hi.workers endpoint
  have heffect := WorkerService.effect hstep hledger.claims
  obtain haccepted | ⟨t', hholder⟩ := hpassed
  · obtain hbefore | ⟨-, hholder, -⟩ := WorkerService.accepted_before heffect hledger hid haccepted
    · exact .inl (.inl hbefore)
    · exact .inl (.inr ⟨t, hholder⟩)
  · obtain hbefore | ⟨rfl, hlife, hopen⟩ := WorkerService.entered_before heffect hholder
    · exact .inl (.inr ⟨t', hbefore⟩)
    · obtain rfl | ⟨m, rpc, -, -, -, hlaunch⟩ := hb
      · exact .inr ⟨rfl, ⟨t', hlife⟩, hopen⟩
      · cases hlaunch

theorem step_nonePassed {ended : State} (h : Effect carried s a u) (hi : Traced carried s)
    (hC : failuresFinal ended s a = true) (hno : NonePassed ended s) : NonePassed ended u := by
  intro n rpc hrpc hgiven hpassed
  obtain ⟨⟨rpc', hrpc'⟩, hcase⟩ := passed_before h hi hpassed
  obtain ⟨old, hold, hkept⟩ | ⟨_, -, -, hnew⟩ := rpc_before h hrpc
  · rw [hkept.taskId] at hgiven
    rw [hkept.endpoint] at hcase
    obtain hbefore | ⟨rfl, ⟨t, hlife⟩, hopen⟩ := hcase
    · exact hno n old hold hgiven hbefore
    · -- the condition has this check refuse the request
      simp [failuresFinal, hlife, hold, hgiven, hopen] at hC
  · rw [hrpc'] at hnew
    cases hnew

/-- A call that was given up stays so. -/
theorem step_gaveUp (h : Effect carried s a u) {t : TaskID}
    (hphase : ∀ call, s.control.phase t ≠ .published call)
    (hgiven : s.dispatches.lookup t = some .gaveUp) : u.dispatches.lookup t = some .gaveUp := by
  cases h with
  | control | reserve | deliver | worker => exact hgiven
  | @send _ n attempt rpc call _ hpublished _ _ =>
    have hne : t ≠ rpc.taskId := by
      rintro rfl
      exact hphase call hpublished
    simpa [State.sendLaunch, UnorderedMap.lookup_insert_eq, hne] using hgiven
  | @answered t' _ _ _ _ _ hwaiting | @gaveUp t' _ _ _ _ _ _ _ hwaiting =>
    have hne : t ≠ t' := by
      rintro rfl
      rw [hgiven] at hwaiting
      cases hwaiting
    simpa [UnorderedMap.lookup_insert_eq, hne] using hgiven

theorem step_excused (h : Effect carried s a u) (hi : Traced carried s)
    (ha : ∀ endpoint, WorkerService.Answers (s.workers endpoint)) (hex : Excused carried s) :
    Excused carried u := by
  intro t call hfailed
  -- a call that has failed before
  have keep : (s.control.phase t).failed? = some call →
      u.dispatches.lookup t = some .gaveUp ∨ Declined carried u t call := by
    intro hbefore
    obtain hgiven | hd := hex t call hbefore
    · refine .inl (step_gaveUp h (fun call' hphase => ?_) hgiven)
      rw [hphase] at hbefore
      cases hbefore
    · exact .inr (step_declined h hi hd)
  have control : ∀ {b control}, ControlSystem.step s.control b = some control →
      (control.phase t).failed? = some call → (s.control.phase t).failed? = some call ∨
        s.control.phase t = .published call ∧ ∃ status, b = .submitDispatched t status ∧
          status.ok = false :=
    fun hstep hf => (ControlSystem.step_task hstep t).failed_before hf
  cases h with
  | send | deliver | worker => exact keep hfailed
  | control hreturn _ hstep =>
    obtain hbefore | ⟨-, status, rfl, -⟩ := control hstep hfailed
    · exact keep hbefore
    · exact absurd rfl (hreturn t status)
  | reserve _ hstep =>
    obtain hbefore | ⟨-, status, hb, -⟩ := control hstep hfailed
    · exact keep hbefore
    · cases hb
  | answered hwaiting hrpc hanswer hstep =>
    obtain hbefore | ⟨hphase, status, hb, hno⟩ := control hstep hfailed
    · exact keep hbefore
    · cases hb
      obtain ⟨-, rpc', hrpc', rfl⟩ := hi.waiting _ _ _ hwaiting
      rw [hrpc] at hrpc'
      cases hrpc'
      rw [Status.fromProto_ok] at hno
      refine .inr (declined_of_answer hi ha hrpc ?_ hanswer hno)
      rw [ControlSystem.State.callOf, hphase]
      rfl
  | @gaveUp t' code message n' attempt n status' control' hwaiting hfailure hstep =>
    obtain hbefore | ⟨hphase, status, hb, hno⟩ := control hstep hfailed
    · exact keep hbefore
    · cases hb
      exact .inl (by simp)

/-! ## The result -/

variable {as : List Action}

/-- What the worker behind an endpoint does. -/
def Event.at? (endpoint : String) (ev : Event) : Option WorkerService.Event :=
  if ev.endpoint = endpoint then some ev.event else none

theorem at?_mk (endpoint : String) (evs : List WorkerService.Event) :
    (evs.map (Event.mk endpoint)).filterMap (Event.at? endpoint) = evs := by
  induction evs with
  | nil => rfl
  | cons ev evs ih => simp [Event.at?, ih]

theorem at?_eq_nil {endpoint : String} {evs : List Event}
    (h : ∀ event, Event.mk endpoint event ∉ evs) : evs.filterMap (Event.at? endpoint) = [] := by
  rw [List.filterMap_eq_nil_iff]
  rintro ⟨endpoint', event⟩ hmem
  simp only [Event.at?]
  split
  · rename_i he
    subst he
    exact absurd hmem (h event)
  · rfl

/-- A run of the cluster is a run of each of its workers. -/
theorem worker_run (h : Run.run (step carried) as (.initial config) = some s)
    (endpoint : String) :
    ∃ bs, Run.run WorkerService.step bs (config endpoint).boot = some (s.workers endpoint) ∧
      WorkerService.observedIn bs (config endpoint).boot =
        (observedIn carried as (.initial config)).filterMap (Event.at? endpoint) := by
  refine Run.simulation (f := fun s => s.workers endpoint) (I := Traced carried)
    (fun _ _ _ hi hstep => step_traced (effect hstep hi) hi) ?_ h traced_initial
  intro s a u hi hstep
  obtain ⟨hsame, hnone⟩ | ⟨b, hb, ha⟩ := worker_step (effect hstep hi) endpoint
  · exact ⟨[], by rw [hsame]; rfl, (at?_eq_nil hnone).symm⟩
  · refine ⟨[b], by rw [Run.run_cons, hb]; rfl, ?_⟩
    rw [Run.observed_cons hb]
    obtain rfl | ⟨n, rpc, rfl, -, -, rfl⟩ := ha
    · exact (List.append_nil _).trans (at?_mk endpoint _).symm
    · rfl

/-- A request at a worker has been delivered to it. -/
theorem deliver_mem (h : Run.run (step carried) as (.initial config) = some s) {endpoint : String}
    {n : Nat} {id : ExecutionID × TaskID} (hid : identity? (s.workers endpoint) n = some id) :
    .deliver n ∈ as := by
  have hkept : ∀ (taken : List Action) (s : State) a u, (Traced carried s ∧
      ∀ endpoint n id, identity? (s.workers endpoint) n = some id → .deliver n ∈ taken) → True →
      step carried s a = some u → Traced carried u ∧
        ∀ endpoint n id, identity? (u.workers endpoint) n = some id →
          .deliver n ∈ taken ++ [a] := by
    rintro taken s a u ⟨hi, hdelivered⟩ - hstep
    have heffect := effect hstep hi
    refine ⟨step_traced heffect hi, fun endpoint n id hid => ?_⟩
    have before : identity? (s.workers endpoint) n = some id → .deliver n ∈ taken ++ [a] :=
      fun hbefore => List.mem_append_left _ (hdelivered endpoint n id hbefore)
    obtain ⟨hsame, -⟩ | ⟨b, hb, ha⟩ := worker_step heffect endpoint
    · rw [hsame] at hid
      exact before hid
    · have hworker := WorkerService.effect hb (hi.workers endpoint).claims
      obtain hsame | ⟨-, -, task, rfl⟩ := WorkerService.step_identity hworker n
      · exact before (hsame ▸ hid)
      · obtain rfl | ⟨m, rpc, rfl, -, -, hlaunch⟩ := ha
        · cases heffect with
          | worker hnot => exact absurd rfl (hnot n task)
          | send hnot => exact absurd rfl (hnot endpoint _)
        · cases hlaunch
          simp
  have hnew : Traced carried (.initial config) ∧ ∀ endpoint n id,
      identity? ((State.initial config).workers endpoint) n = some id →
        Action.deliver n ∈ ([] : List Action) := by
    refine ⟨traced_initial, fun endpoint n id hid => ?_⟩
    simp [State.initial, WorkerConfig.boot, identity?, WorkerService.State.initial] at hid
  have hrun := Run.invariant_observed hkept (Run.along_true as _) h hnew
  rw [List.nil_append, Run.observed_labels h] at hrun
  exact hrun.2 endpoint n id hid

/-- The condition is met wherever the requests of the calls that are given up are lost. -/
theorem failuresFinal_of_lost (h : Run.run (step carried) as (.initial config) = some s)
    (hlost : ∀ n rpc, .deliver n ∈ as → s.rpcs.lookup n = some rpc →
      s.dispatches.lookup rpc.taskId ≠ some .gaveUp) :
    Run.Along (step carried) (fun v a => failuresFinal s v a = true) as (.initial config) := by
  refine Run.along_iff.mpr fun pre a post v he hv => ?_
  rw [he, Run.run_append, hv] at h
  have hi : Traced carried v :=
    Run.invariant_run (fun _ _ _ hi hstep => step_traced (effect hstep hi) hi) hv traced_initial
  simp only [failuresFinal]
  split
  · rename_i endpoint
    split
    · rename_i n t hlife
      have hsubmitting := (hi.workers endpoint).sound.submitting
      have hcourse := LocalSystem.course_of_submitting hsubmitting
        (LocalSystem.submitting_enqueuing hlife)
      obtain ⟨l, hl, -⟩ := (hi.workers endpoint).inside hcourse rfl
      have hmem : .deliver n ∈ as :=
        he ▸ List.mem_append_left _ (deliver_mem hv (WorkerService.identity_of_lookup hl))
      rw [Option.all_eq_true]
      intro rpc hrpc
      -- the request is the same in the end
      have hlast : Traced carried s ∧ ∃ rpc', s.rpcs.lookup n = some rpc' ∧
          rpc'.taskId = rpc.taskId := by
        refine Run.invariant_run (I := fun w => Traced carried w ∧ ∃ rpc',
          w.rpcs.lookup n = some rpc' ∧ rpc'.taskId = rpc.taskId) ?_ h ⟨hi, rpc, hrpc, rfl⟩
        rintro w b w' ⟨hw, rpc', hrpc', htask⟩ hstep
        have heffect := effect hstep hw
        obtain ⟨rpc'', hrpc'', hkept⟩ := rpc_keep heffect hrpc'
        exact ⟨step_traced heffect hw, rpc'', hrpc'', hkept.taskId.trans htask⟩
      obtain ⟨-, rpc', hrpc', htask⟩ := hlast
      have hnot := hlost n rpc' hmem hrpc'
      rw [htask] at hnot
      simp [hnot]
    · rfl
  · rfl

namespace Sample

/-- The worker is not started. Its refusal of the first request and the second request are lost. -/
def requestRefused : List Action :=
  submit.drop WorkerService.Sample.start.length ++
    [.deliver 0, .worker endpoint (.launchClaim 0), .worker endpoint (.launchSubmit 0), expire 1,
      expire 2] ++ rollBack

/-- Both requests arrive, and both replies are lost. -/
def repliesLost : List Action :=
  submit ++ accept 0 ++ [expire 1, .deliver 1, .worker endpoint (.launchClaim 1), expire 2] ++
    rollBack

end Sample

end Cluster

end AgentRuntime
