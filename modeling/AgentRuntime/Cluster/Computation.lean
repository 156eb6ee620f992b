import AgentRuntime.Cluster.Cancelling
import AgentRuntime.Worker.BuiltinHandlers

/-!
# What the cluster computes

The handler that a submission names is a function of the payload, its media type and what it
reads the token as. Whatever happens to the requests, the reports and the nodes on the way, a
terminal record has the value of that function at what the client has submitted, or the task was
cancelled for a client, or its node was declared dead.
-/
namespace AgentRuntime

namespace Cluster

open ControlSystem (SubmitCall)
open LocalSystem (exitsOf)

variable {carried : ResourceSet → Except Status ResourceSet} {config : String → WorkerConfig}

namespace Cancelling

/-! ## The handlers -/

/-- The registered function leaves the handler in this way, if it has read the token as set only
after it was set. -/
def Computes (f : RegisteredHandler) (payload : ByteString) (media : String) (token : Prop)
    (exit : HandlerExit) : Prop :=
  ∃ cancelled : Bool, (cancelled = true → token) ∧
    ∀ exit', f payload media cancelled = some exit' → exit' = exit

def computes (f : RegisteredHandler) (payload : ByteString) (media : String) (token : Bool)
    (exit : HandlerExit) : Bool :=
  (f payload media false).all (fun exit' => exit' = exit) ||
    token && (f payload media true).all (fun exit' => exit' = exit)

/-- A handler that is left at a worker has run the function that its name resolves to there. -/
def obeys (table : String → HandlerTable) (s : State) : Action → Bool
  | .reporting (.cluster (.worker endpoint (.runtime (.thread w (.leaveHandler exit))))) =>
    match ((s.worker endpoint).runtime.worker w).thread with
    | .executing work =>
      work.handler.all fun bound =>
        match (table endpoint).resolve bound.entrypoint with
        | .ok f => computes f bound.payload bound.payloadMediaType
          ((s.worker endpoint).runtime.token work.spec.id) exit
        | .error _ => true
    | _ => true
  | _ => true

theorem computes_iff {f : RegisteredHandler} {payload : ByteString} {media : String}
    {token : Bool} {exit : HandlerExit} : computes f payload media token exit = true ↔
      Computes f payload media (token = true) exit := by
  simp [computes, Computes, Option.all_eq_true]

/-! ## The exits -/

/-- The exits are those of the submitted tasks, at what was submitted. -/
def Computed (table : String → HandlerTable) (left : List Exit) (s : State) : Prop :=
  ∀ e ∈ left, ∃ call, s.control.callOf e.taskId = some call ∧
    call.node.workerEndpoint = e.endpoint ∧
    ∀ f, (table e.endpoint).resolve call.submission.entrypoint = .ok f →
      Computes f call.submission.payload call.submission.payloadMediaType
        (Signalled s.reporting e.taskId) e.exit

theorem Computes.mono {f : RegisteredHandler} {payload : ByteString} {media : String}
    {token token' : Prop} {exit : HandlerExit} (h : Computes f payload media token exit)
    (htoken : token → token') : Computes f payload media token' exit := by
  obtain ⟨cancelled, hread, hexit⟩ := h
  exact ⟨cancelled, fun hc => htoken (hread hc), hexit⟩

section

variable {s u : State} {a : Action} {table : String → HandlerTable} {left : List Exit}

/-- An exit is one of a worker's step, in which a thread leaves the handler it is in. -/
theorem exit_cases {e : Exit} (h : e ∈ exits s a) : ∃ w work,
    a = .reporting (.cluster (.worker e.endpoint (.runtime (.thread w (.leaveHandler e.exit))))) ∧
      ((s.worker e.endpoint).runtime.worker w).thread = .executing work ∧
      work.spec.id = e.taskId := by
  cases a with
  | reporting a =>
    cases a with
    | cluster a =>
      cases a with
      | worker endpoint a =>
        obtain ⟨⟨t, exit⟩, hmem, rfl⟩ := List.mem_map.mp h
        cases a with
        | runtime a =>
          simp only [WorkerService.exits, LocalSystem.exits] at hmem
          split at hmem
          · split at hmem
            · rename_i work hthread
              cases List.mem_singleton.mp hmem
              exact ⟨_, work, rfl, hthread, rfl⟩
            · cases hmem
          · cases hmem
        | _ => cases hmem
      | _ => cases h
    | _ => cases h
  | _ => cases h

theorem Computed.step {seen : List ControlSystem.CancelEvent} (hc : Computed table left s)
    (hi : Inv carried seen s) (hobeys : obeys table s a = true) (h : step carried s a = some u) :
    Computed table (left ++ exits s a) u := by
  have hkept : ∀ {t call}, s.control.callOf t = some call → u.control.callOf t = some call := by
    intro t call hcall
    exact step_keeps (P := fun r => r.control.callOf t = some call) h hcall fun _ _ hb =>
      Reporting.callOf_after (Reporting.effect hb) hi.watched hcall
  have htoken : ∀ {t}, Signalled s.reporting t → Signalled u.reporting t := fun ht =>
    step_keeps h ht fun _ _ hb => hi.signalled_rest hb ht
  intro e hmem
  obtain hmem | hmem := List.mem_append.mp hmem
  · obtain ⟨call, hcall, hendpoint, hf⟩ := hc e hmem
    exact ⟨call, hkept hcall, hendpoint, fun f hresolve => (hf f hresolve).mono htoken⟩
  · obtain ⟨w, work, rfl, hthread, hid⟩ := exit_cases hmem
    obtain ⟨taken, hb⟩ := hi.backed
    have hitem : ((s.worker e.endpoint).runtime.worker w).item? = some (work, .running) :=
      ((hi.ledger e.endpoint).sound.inv.slots.wellFormed w).item?_of_thread
        (show ((s.worker e.endpoint).runtime.worker w).thread.item? = _ by rw [hthread]; rfl)
    obtain ⟨call, hcall, hendpoint, hsame⟩ := hb.delivered.item hb.watched.traced hitem
    rw [hid] at hcall
    refine ⟨call, hkept hcall, hendpoint, fun f hresolve => ?_⟩
    simp only [obeys, hthread, hsame.handler, hresolve, Option.all_some, hid] at hobeys
    exact (computes_iff.mp hobeys).mono fun ht => htoken (hi.signalled ht)

end

/-! ## The result -/

/-- What a terminal record of the task says, given the function that its handler is. -/
inductive Result (f : RegisteredHandler) (as : List Action) (call : SubmitCall) (t : TaskID) :
    DistributedTaskRecord → Prop where
  /-- A token that the function has read as set has been asked for. -/
  | computed (exit) (h : Computes f call.submission.payload call.submission.payloadMediaType
      (∃ k, CalledFor as k t) exit) :
      Result f as call t ((call.record t).concluded (Executor.outcome exit))
  | withdrawn (hcalled : ∃ k, CalledFor as k t) :
      Result f as call t ((call.record t).concluded LocalSystem.withdrawal)
  | nodeDied (hdied : Died as call.node.nodeId call.node.incarnation) :
      Result f as call t (ControlPlane.failedByNode (call.record t))

variable {s : State} {as : List Action} {table : String → HandlerTable}

theorem computed_run (h : Run.run (step carried) as (.initial config) = some s)
    (hobeys : Run.Along (step carried) (fun s a => obeys table s a = true) as (.initial config)) :
    Computed table (Run.observed (step carried) exits as (.initial config)) s := by
  have hkept : ∀ left (s : State) a u, (∃ seen, Inv carried seen s) ∧ Computed table left s →
      obeys table s a = true → step carried s a = some u →
      (∃ seen, Inv carried seen u) ∧ Computed table (left ++ exits s a) u := by
    rintro left s a u ⟨⟨seen, hi⟩, hc⟩ ha hstep
    obtain ⟨new, hu, -⟩ := hi.step hstep
    exact ⟨⟨_, hu⟩, hc.step hi ha hstep⟩
  have hinitial : (∃ seen, Inv carried seen (.initial config)) ∧
      Computed table [] (.initial config) := ⟨⟨[], inv_initial⟩, fun e hmem => by cases hmem⟩
  exact (Run.invariant_observed hkept hobeys h hinitial).2

theorem result_run (h : Run.run (step carried) as (.initial config) = some s)
    (hobeys : Run.Along (step carried) (fun s a => obeys table s a = true) as (.initial config))
    {t : TaskID} {record : DistributedTaskRecord} (hl : s.control.record t = some record)
    (hterm : isTerminal record.state = true) : ∃ call, s.control.callOf t = some call ∧
      ∀ f, (table call.node.workerEndpoint).resolve call.submission.entrypoint = .ok f →
        Result f as call t record := by
  obtain ⟨bs, hb, ho, hdead⟩ := backed_run h
  cases hb.records t record hl hterm with
  | nodeDied hcall hdied => exact ⟨_, hcall, fun f _ => .nodeDied (hdead _ _ hdied)⟩
  | @reported call own hcall hown hended =>
    refine ⟨call, hcall, fun f hresolve => ?_⟩
    have hends := (ho call.node.workerEndpoint).ended t own hown hended
    generalize hexits : exitsOf _ t = left at hends
    cases hends with
    | executed exit hshows =>
      have hleft := mem_of_exitsOf (hexits ▸ List.mem_singleton_self exit)
      obtain ⟨call', hcall', -, hf⟩ := computed_run h hobeys _ hleft
      obtain rfl : call = call' := Option.some.inj (hcall.symm.trans hcall')
      rw [Reporting.concluded_of_shows hshows]
      refine .computed exit ((hf f hresolve).mono ?_)
      rintro ⟨_, -, ht⟩
      exact asked_run h ht
    | withdrawn hshows htoken =>
      rw [Reporting.concluded_of_shows hshows]
      exact .withdrawn (asked_run h ((LocalSystem.token_of_record hown).trans htoken))

/-- Each handler that is left has computed its function at what was submitted for its node, and
each terminal record says what came of it, unless the task was cancelled for a client or its node
was declared dead. -/
theorem results_computed (h : Run.run (step carried) as (.initial config) = some s)
    (hobeys : Run.Along (step carried) (fun s a => obeys table s a = true) as
      (.initial config)) :
    Computed table (Run.observed (step carried) exits as (.initial config)) s ∧
    ∀ t record, s.control.record t = some record → isTerminal record.state = true →
      ∃ call, s.control.callOf t = some call ∧
        ∀ f, (table call.node.workerEndpoint).resolve call.submission.entrypoint = .ok f →
          Result f as call t record :=
  ⟨computed_run h hobeys, fun _ _ hl hterm => result_run h hobeys hl hterm⟩

namespace Sample

/-- The worker processes have the built-in handlers. -/
def builtin (_ : String) : HandlerTable := HandlerTable.registerAll [] (registerBuiltinHandlers ∅).2

def squareConfig (endpoint : String) : WorkerConfig :=
  { Cluster.Sample.config endpoint with registry := ⟨["builtin.square"]⟩ }

def twelve : SubmitTaskSpec :=
  { ControlSystem.Sample.submission with
    entrypoint := "builtin.square"
    payload := Decimal.toString 12
    payloadMediaType := "text/plain" }

/-- The node registers, its worker starts, and the task is submitted and accepted. -/
def submitTwelve : List Cluster.Action :=
  WorkerService.Sample.start.map (Cluster.Action.worker Cluster.Sample.endpoint) ++
    [.control (.registerNode (ControlSystem.Sample.node 1) 0),
      .control (.submitReserve (ControlSystem.Sample.task 1) (ControlSystem.Sample.execution 1)
        true twelve),
      .control (.submitPublish (ControlSystem.Sample.task 1)),
      .dispatch (ControlSystem.Sample.task 1) 0] ++ Cluster.Sample.accept 0 ++
    [.reply (ControlSystem.Sample.task 1)]

/-- The handler is called and left with the square. -/
def square : List LocalSystem.Action :=
  .loop .wait :: LocalSystem.Sample.schedule (.ofByte 1) ++ LocalSystem.Sample.execute.take 3 ++
    [.thread LocalSystem.Sample.workerId (.leaveHandler (.returned .OK (Decimal.toString 144))),
      .thread LocalSystem.Sample.workerId .complete]

/-- The result is reported. -/
def squared : List Action :=
  ((submitTwelve ++
      square.map fun a => Cluster.Action.worker Cluster.Sample.endpoint (.runtime a)).map
        Reporting.Action.cluster ++
    [Reporting.Action.send Cluster.Sample.endpoint Reporting.Sample.thread 0, .handle 0]).map
      .reporting

set_option maxRecDepth 8000 in
theorem run_squared : Run.run (step .ok) squared (.initial squareConfig) =
    some (Run.stateAfter (step .ok) squared (.initial squareConfig)) :=
  Run.run_stateAfter (by decide)

set_option maxRecDepth 8000 in
theorem obeys_squared : Run.Along (step .ok) (fun s a => obeys builtin s a = true) squared
    (.initial squareConfig) := by
  decide

set_option maxRecDepth 8000 in
theorem succeeded_squared : ((Run.stateAfter (step .ok) squared
    (.initial squareConfig)).control.record (ControlSystem.Sample.task 1)).map
      DistributedTaskRecord.state = some .succeeded := by
  decide

end Sample

theorem results_computed_squared : ∃ record call,
    (Run.stateAfter (step .ok) Sample.squared (.initial Sample.squareConfig)).control.record
      (ControlSystem.Sample.task 1) = some record ∧ isTerminal record.state = true ∧
    Result (builtinSquare true) Sample.squared call (ControlSystem.Sample.task 1) record := by
  obtain ⟨record, hl, hsucceeded⟩ := Option.map_eq_some_iff.mp Sample.succeeded_squared
  have hterm : isTerminal record.state = true := by
    rw [hsucceeded]
    rfl
  obtain ⟨call, hcall, hresult⟩ := (results_computed Sample.run_squared Sample.obeys_squared).2 _ record hl hterm
  have hentrypoint : call.submission.entrypoint = "builtin.square" := by
    cases hcall
    rfl
  exact ⟨record, call, hl, hterm, hresult _ (hentrypoint ▸ rfl)⟩

/-! ## builtin.square -/

open Decimal (Reads)

/-- The payload is the text of an integer in the range. -/
def HoldsInteger (submission : SubmitTaskSpec) : Prop :=
  submission.payloadMediaType = "text/plain" ∧
    ∃ value, Reads submission.payload value ∧ FitsInt64 value

/-- What the record of a task for `builtin.square` says once it is terminal. -/
structure Squared (as : List Action) (call : SubmitCall) (t : TaskID)
    (record : DistributedTaskRecord) : Prop where
  succeeded : record.state = .succeeded → call.submission.payloadMediaType = "text/plain" ∧
    ∃ value, Reads call.submission.payload value ∧ FitsInt64 (value * value) ∧
      record.result = Decimal.toString (value * value)
  canceled : record.state = .canceled → record.result = [] ∧ ∃ k, CalledFor as k t
  failed : record.state = .failed → record.result = [] ∧
    (¬ HoldsInteger call.submission ∨ Died as call.node.nodeId call.node.incarnation)

/-- A worker process that has registered its built-in handlers first resolves the name to them,
whatever it has registered since. -/
theorem resolve_square (calls : List (String × Option RegisteredHandler)) :
    (HandlerTable.registerAll calls (registerBuiltinHandlers ∅).2).resolve "builtin.square" =
      .ok (builtinSquare true) := by
  refine HandlerTable.resolve_registerAll ?_ calls
  have hregister : (registerBuiltinHandlers ∅).2 =
      (∅ : HandlerTable).insert "builtin.square" (builtinSquare true) := rfl
  rw [hregister, HandlerTable.resolve, Finmap.lookup_insert]

/-- The state that a record has with an outcome. -/
theorem concluded_state (record : DistributedTaskRecord) (outcome : ExecutionOutcome) :
    (record.concluded outcome).state = if outcome.status.ok then .succeeded
      else if outcome.status.isCancelled then .canceled else .failed :=
  terminalState_fromProto outcome.status

theorem squared_of_result {call : SubmitCall} {t : TaskID} {record : DistributedTaskRecord}
    (h : Result (builtinSquare true) as call t record)
    (hdefined : ∀ value, Reads call.submission.payload value → FitsInt64 value →
      FitsInt64 (value * value)) : Squared as call t record := by
  cases h with
  | computed exit h =>
    obtain ⟨cancelled, hasked, hexit⟩ := h
    by_cases hs : Served call.submission.payload call.submission.payloadMediaType cancelled
    · obtain ⟨hmedia, hcancelled, value, hreads, hfits⟩ := hs
      have hsquare := hdefined value hreads hfits
      rw [builtinSquare_of_reads hmedia hcancelled hreads hfits, if_pos hsquare] at hexit
      obtain rfl := hexit _ rfl
      refine ⟨fun _ => ⟨hmedia, value, hreads, hsquare, rfl⟩, fun hstate => ?_, fun hstate => ?_⟩
      · rw [concluded_state] at hstate
        cases hstate
      · rw [concluded_state] at hstate
        cases hstate
    · obtain ⟨status, hrefused, hno, hwhy⟩ := refused_of_not_served hs
      rw [hrefused] at hexit
      obtain rfl := hexit _ rfl
      have hstate : ((call.record t).concluded (Executor.outcome (.returned status []))).state =
          if status.isCancelled then .canceled else .failed := by
        rw [concluded_state]
        exact if_neg (by simp [Executor.outcome, hno])
      refine ⟨fun h => ?_, fun h => ⟨rfl, ?_⟩, fun h => ⟨rfl, .inl fun hholds => ?_⟩⟩
      · rw [hstate] at h
        split at h <;> cases h
      · rw [hstate] at h
        split at h
        · rename_i hcancelled
          exact hasked (hwhy.mp hcancelled).2
        · cases h
      · rw [hstate] at h
        split at h
        · cases h
        · rename_i hlive
          -- the payload is an integer, so that only a cancellation can refuse it
          obtain ⟨hmedia, hinteger⟩ := hholds
          have hunset : cancelled = false := by
            cases cancelled with
            | false => rfl
            | true => exact absurd (hwhy.mpr ⟨hmedia, rfl⟩) hlive
          exact hs ⟨hmedia, hunset, hinteger⟩
  | withdrawn hcalled =>
    have hstate : ((call.record t).concluded LocalSystem.withdrawal).state = .canceled := rfl
    refine ⟨fun h => ?_, fun _ => ⟨rfl, hcalled⟩, fun h => ?_⟩ <;>
    · rw [hstate] at h
      cases h
  | nodeDied hdied =>
    have hstate : (ControlPlane.failedByNode (call.record t)).state = .failed := rfl
    refine ⟨fun h => ?_, fun h => ?_, fun _ => ⟨rfl, .inr hdied⟩⟩ <;>
    · rw [hstate] at h
      cases h

/-- The cluster squares: a task for `builtin.square` succeeds with the square of the integer that
its client has submitted, and it fails or is cancelled only for a reason. -/
theorem squares (h : Run.run (step carried) as (.initial config) = some s)
    (hbuiltin : ∀ endpoint, ∃ calls, table endpoint =
      HandlerTable.registerAll calls (registerBuiltinHandlers ∅).2)
    (hobeys : Run.Along (step carried) (fun s a => obeys table s a = true) as (.initial config))
    {t : TaskID} {record : DistributedTaskRecord} (hl : s.control.record t = some record)
    (hterm : isTerminal record.state = true) : ∃ call, s.control.callOf t = some call ∧
      (call.submission.entrypoint = "builtin.square" →
        (∀ value, Reads call.submission.payload value → FitsInt64 value →
          FitsInt64 (value * value)) → Squared as call t record) := by
  obtain ⟨call, hcall, hresult⟩ := result_run h hobeys hl hterm
  refine ⟨call, hcall, fun hentrypoint hdefined => ?_⟩
  obtain ⟨calls, htable⟩ := hbuiltin call.node.workerEndpoint
  refine squared_of_result (hresult _ ?_) hdefined
  rw [htable, hentrypoint]
  exact resolve_square calls

theorem squares_twelve : ∃ record,
    (Run.stateAfter (step .ok) Sample.squared (.initial Sample.squareConfig)).control.record
      (ControlSystem.Sample.task 1) = some record ∧ record.state = .succeeded ∧
    ∃ value, Reads (Decimal.toString 12) value ∧ FitsInt64 (value * value) ∧
      record.result = Decimal.toString (value * value) := by
  obtain ⟨record, hl, hsucceeded⟩ := Option.map_eq_some_iff.mp Sample.succeeded_squared
  obtain ⟨call, hcall, hsquared⟩ := squares Sample.run_squared (fun _ => ⟨[], rfl⟩)
    Sample.obeys_squared hl (by rw [hsucceeded]; rfl)
  have hsubmission : call.submission = Sample.twelve := by
    cases hcall
    rfl
  have hdefined : ∀ value, Reads call.submission.payload value → FitsInt64 value →
      FitsInt64 (value * value) := by
    intro value hreads hfits
    rw [hsubmission] at hreads
    have htwelve := Decimal.stoll_exact.mpr ⟨hreads, hfits⟩
    have hread : Decimal.stoll (Decimal.toString 12) = .ok (12, 2) := by decide
    have heq := hread.symm.trans htwelve
    cases heq
    decide
  have hresult := (hsquared (by rw [hsubmission]; rfl) hdefined).succeeded hsucceeded
  rw [hsubmission] at hresult
  exact ⟨record, hl, hsucceeded, hresult.2⟩

end Cancelling

end Cluster

end AgentRuntime
