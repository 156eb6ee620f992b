import AgentRuntime.Cluster.ResultIntegrity
import AgentRuntime.Control.Signals
import AgentRuntime.Service.Tokens

/-!
# Cancellations between the control plane and the workers

`CancelTask` sends one request to the worker of the node that it has found. The request
arrives at most once, at any time or never, and the call may end at any time with a
failure. Whatever is lost or late, an OK means that the token of the task is set at its
worker, and a token that is set has been asked for.
-/
namespace AgentRuntime

/-! ## CancelTask -/

namespace NodeManager

/-- The checks of `CancelTask` before its request. -/
def checkCancel (taskId : TaskID) (executionId : ExecutionID) : Status :=
  if taskId.isNil then .InvalidArgument "cancel task id cannot be nil"
  else if executionId.isNil then .InvalidArgument "cancel execution id cannot be nil"
  else .OK

/-- What `CancelTask` returns after a failure of the transport. -/
def cancelFailed (message : String) : Status := .Unavailable ("CancelTask RPC failed: " ++ message)

end NodeManager

namespace Cluster

open ControlSystem (CancelEvent Honoured MadeFor SubmitCall)
open LocalSystem (exitsOf)
open WorkerService (Heard)

variable {carried : ResourceSet → Except Status ResourceSet} {config : String → WorkerConfig}

namespace Cancelling

/-! ## The system -/

/-- A `CancelTask` request to a worker. -/
structure CancelRpc where
  endpoint : String
  taskId : ByteString
  executionId : ByteString
  delivered : Bool

structure State where
  reporting : Reporting.State
  /-- The request of each `CancelTask` call, which makes one at most. -/
  requests : UnorderedMap Nat CancelRpc

def State.initial (config : String → WorkerConfig) : State := ⟨.initial config, ∅⟩

def State.control (s : State) : ControlSystem.State := s.reporting.control
def State.worker (s : State) (endpoint : String) : WorkerService.State :=
  s.reporting.worker endpoint
def State.setRequest (s : State) (k : Nat) (rpc : CancelRpc) : State :=
  { s with requests := s.requests.insert k rpc }

inductive Action where
  /-- A step in which no request to cancel is sent, delivered or answered. -/
  | reporting (a : Reporting.Action)
  /-- `CancelTask` of the node manager sends the request of the call `k`, or refuses to. -/
  | send (k : Nat)
  /-- The request arrives. -/
  | deliver (k : Nat)
  /-- The reply arrives. -/
  | reply (k : Nat)
  | fail (k : Nat) (message : String)

/-- The control plane is the only one to ask the workers, and waits for their answers. -/
def isCancel : Reporting.Action → Bool
  | .cluster (.control (.cancelDelivered _ _)) | .cluster (.worker _ (.cancelBegin _ _ _)) => true
  | _ => false

/-- `CancelTask` of the node manager returns to that of the control plane. -/
def returns (k : Nat) (status : Status) : Reporting.Action :=
  .cluster (.control (.cancelDelivered k status))

/-- What the rest of the system does in a step, and the requests after it. -/
def moves (s : State) : Action → Option (List Reporting.Action × UnorderedMap Nat CancelRpc)
  | .reporting a => if isCancel a then none else some ([a], s.requests)
  | .send k =>
    match s.control.cancelPhase k, s.requests.lookup k with
    | .located _ record node, none =>
      let checked := NodeManager.checkCancel record.taskId record.executionId
      if checked.ok then
        some ([], s.requests.insert k
          ⟨node.workerEndpoint, record.taskId.toProto, record.executionId.toProto, false⟩)
      else some ([returns k checked], s.requests)
    | _, _ => none
  | .deliver k =>
    match s.requests.lookup k with
    | some rpc =>
      if rpc.delivered then none
      else some ([.cluster (.worker rpc.endpoint (.cancelBegin k rpc.taskId rpc.executionId))],
        s.requests.insert k { rpc with delivered := true })
    | none => none
  | .reply k =>
    match s.requests.lookup k with
    | some rpc =>
      match (s.worker rpc.endpoint).cancels.lookup k with
      | some (.replied status) => some ([returns k status.fromProto], s.requests)
      | _ => none
    | none => none
  | .fail k message =>
    match s.requests.lookup k with
    | some _ => some ([returns k (NodeManager.cancelFailed message)], s.requests)
    | none => none

variable (carried)

def step (s : State) (a : Action) : Option State :=
  (moves s a).bind fun m =>
    (Run.run (Reporting.step carried) m.1 s.reporting).map fun reporting => ⟨reporting, m.2⟩

/-- How the handlers of the workers are left. -/
def exits (s : State) : Action → List Exit
  | .reporting a => Reporting.exits s.reporting a
  | .send _ | .deliver _ | .reply _ | .fail _ _ => []

/-- A client calls `CancelTask` for the task, as the call `k`. -/
def CalledFor (as : List Action) (k : Nat) (t : TaskID) : Prop :=
  .reporting (.cluster (.control (.cancelSnapshot k t))) ∈ as

/-! ## What each step does -/

inductive Effect (s : State) : Action → State → Prop where
  | reporting {a reporting} (hno : isCancel a = false)
      (hstep : Reporting.step carried s.reporting a = some reporting) :
      Effect s (.reporting a) { s with reporting := reporting }
  | send {k t record node} (hphase : s.control.cancelPhase k = .located t record node)
      (hnew : s.requests.lookup k = none) :
      Effect s (.send k) (s.setRequest k
        ⟨node.workerEndpoint, record.taskId.toProto, record.executionId.toProto, false⟩)
  | refuse {a k status reporting} (ha : ∀ b, a ≠ .reporting b) (hno : status.ok = false)
      (hstep : Reporting.step carried s.reporting (returns k status) = some reporting) :
      Effect s a { s with reporting := reporting }
  | deliver {k rpc reporting} (hrpc : s.requests.lookup k = some rpc)
      (hstep : Reporting.step carried s.reporting
        (.cluster (.worker rpc.endpoint (.cancelBegin k rpc.taskId rpc.executionId))) =
          some reporting) :
      Effect s (.deliver k)
        ({ s with reporting := reporting }.setRequest k { rpc with delivered := true })
  | reply {k rpc status reporting} (hrpc : s.requests.lookup k = some rpc)
      (hreplied : (s.worker rpc.endpoint).cancels.lookup k = some (.replied status))
      (hstep : Reporting.step carried s.reporting (returns k status.fromProto) = some reporting) :
      Effect s (.reply k) { s with reporting := reporting }

variable {carried} {s u : State} {a : Action}

theorem step_moves (h : step carried s a = some u) : ∃ bs, moves s a = some (bs, u.requests) ∧
    Run.run (Reporting.step carried) bs s.reporting = some u.reporting := by
  obtain ⟨⟨bs, requests⟩, hmoves, hrun⟩ := Option.bind_eq_some_iff.mp h
  obtain ⟨reporting, hreporting, rfl⟩ := Option.map_eq_some_iff.mp hrun
  exact ⟨bs, hmoves, hreporting⟩

theorem run_single {b : Reporting.Action} {r r' : Reporting.State}
    (h : Run.run (Reporting.step carried) [b] r = some r') :
    Reporting.step carried r b = some r' := by
  obtain ⟨r'', hstep, hnil⟩ := Run.run_cons_some h
  cases hnil
  exact hstep

theorem effect (h : step carried s a = some u) : Effect carried s a u := by
  obtain ⟨bs, hmoves, hrun⟩ := step_moves h
  obtain ⟨reporting, requests⟩ := u
  simp only at hmoves hrun
  cases a with
  | reporting a =>
    simp only [moves] at hmoves
    split at hmoves
    · cases hmoves
    · rename_i hno
      cases hmoves
      exact .reporting (by simpa using hno) (run_single hrun)
  | send k =>
    simp only [moves] at hmoves
    split at hmoves
    · rename_i t record node hphase hnew
      split at hmoves
      · cases hmoves
        cases hrun
        exact .send hphase hnew
      · rename_i hno
        cases hmoves
        exact .refuse (by simp) (by simpa using hno) (run_single hrun)
    · cases hmoves
  | deliver k =>
    simp only [moves] at hmoves
    split at hmoves
    · rename_i rpc hrpc
      split at hmoves
      · cases hmoves
      · cases hmoves
        exact .deliver hrpc (run_single hrun)
    · cases hmoves
  | reply k =>
    simp only [moves] at hmoves
    split at hmoves
    · rename_i rpc hrpc
      split at hmoves
      · rename_i status hreplied
        cases hmoves
        exact .reply hrpc hreplied (run_single hrun)
      · cases hmoves
    · cases hmoves
  | fail k message =>
    simp only [moves] at hmoves
    split at hmoves
    · cases hmoves
      exact .refuse (by simp) rfl (run_single hrun)
    · cases hmoves

/-- The rest of the system takes one step, or does not change. -/
theorem step_reporting (h : Effect carried s a u) :
    u.reporting = s.reporting ∧ exits s a = [] ∨
    ∃ b, Reporting.step carried s.reporting b = some u.reporting ∧
      exits s a = Reporting.exits s.reporting b ∧ (a = .reporting b ∨ isCancel b = true) := by
  cases h with
  | reporting _ hstep => exact .inr ⟨_, hstep, rfl, .inl rfl⟩
  | send => exact .inl ⟨rfl, rfl⟩
  | @refuse a k status r ha _ hstep =>
    refine .inr ⟨_, hstep, ?_, .inr rfl⟩
    cases a with
    | reporting b => exact absurd rfl (ha b)
    | send | deliver | reply | fail => rfl
  | deliver _ hstep | reply _ _ hstep => exact .inr ⟨_, hstep, rfl, .inr rfl⟩

/-- What a step of the rest of the system keeps is kept. -/
theorem step_keeps {P : Reporting.State → Prop} (h : step carried s a = some u)
    (hp : P s.reporting)
    (hkeep : ∀ b r, Reporting.step carried s.reporting b = some r → P r) : P u.reporting := by
  obtain ⟨hsame, -⟩ | ⟨b, hb, -⟩ := step_reporting (effect h)
  · exact hsame ▸ hp
  · exact hkeep b _ hb

/-! ## A step of the rest of the system -/

section

variable {r r' : Reporting.State} {b : Reporting.Action}

/-- The control plane takes the step that is made for it, or one of none of its `CancelTask`
calls. -/
theorem control_step (h : Reporting.Effect carried r b r') (hw : Watched carried r.cluster) :
    r'.control = r.control ∧ (∀ c, b ≠ .cluster (.control c)) ∨
    ∃ c, ControlSystem.step r.control c = some r'.control ∧
      (b = .cluster (.control c) ∨
        ControlSystem.cancelCall c = none ∧ ∀ c', b ≠ .cluster (.control c')) := by
  by_cases hb : ∃ c, b = .cluster (.control c)
  · obtain ⟨c, rfl⟩ := hb
    cases h with
    | cluster _ hstep => exact .inr ⟨c, control_of_step hstep, .inl rfl⟩
  · have hno : ∀ c, b ≠ .cluster (.control c) := fun c heq => hb ⟨c, heq⟩
    cases h with
    | cluster _ hstep =>
      cases Cluster.effect hstep hw.traced with
      | control => exact absurd rfl (hno _)
      | reserve _ hcontrol | answered _ _ _ hcontrol | gaveUp _ _ hcontrol =>
        exact .inr ⟨_, hcontrol, .inr ⟨rfl, hno⟩⟩
      | send | deliver | worker => exact .inl ⟨rfl, hno⟩
    | send _ _ _ hstep | unsent _ _ hstep =>
      obtain ⟨worker, -, rfl⟩ := Option.map_eq_some_iff.mp hstep
      exact .inl ⟨rfl, hno⟩
    | reject | lose => exact .inl ⟨rfl, hno⟩
    | @handle n rpc c cluster _ _ hcall hstep =>
      refine .inr ⟨c, control_of_step hstep, .inr ⟨?_, hno⟩⟩
      cases hdecode : decodeReport rpc.request with
      | error status =>
        rw [Reporting.call, hdecode] at hcall
        cases hcall
      | ok ids =>
        rw [Reporting.call_of_decode hdecode] at hcall
        cases hcall
        rfl

/-- A worker takes a step, in which no request to cancel arrives but by a step of its own. -/
theorem worker_move (h : Reporting.Effect carried r b r') (hw : Watched carried r.cluster)
    (endpoint : String) : r'.worker endpoint = r.worker endpoint ∨
      ∃ c, WorkerService.step (r.worker endpoint) c = some (r'.worker endpoint) ∧
        ∀ n taskId executionId, c = .cancelBegin n taskId executionId →
          b = .cluster (.worker endpoint c) := by
  have hmove : ∀ {a : Cluster.Action} {cluster : Cluster.State},
      Cluster.step carried r.cluster a = some cluster →
      cluster.workers endpoint = r.worker endpoint ∨
      ∃ c, WorkerService.step (r.worker endpoint) c = some (cluster.workers endpoint) ∧
        (a = .worker endpoint c ∨ ∀ n taskId executionId, c ≠ .cancelBegin n taskId executionId) := by
    intro a cluster hstep
    obtain ⟨hsame, -⟩ | ⟨c, hc, hof⟩ := worker_step (Cluster.effect hstep hw.traced) endpoint
    · exact .inl hsame
    · refine .inr ⟨c, hc, hof.imp id ?_⟩
      rintro ⟨_, _, _, _, _, rfl⟩ n taskId executionId heq
      cases heq
  cases h with
  | cluster _ hstep =>
    obtain hsame | ⟨c, hc, rfl | hno⟩ := hmove hstep
    · exact .inl hsame
    · exact .inr ⟨c, hc, fun _ _ _ _ => rfl⟩
    · exact .inr ⟨c, hc, fun n taskId executionId heq => absurd heq (hno n taskId executionId)⟩
  | send _ _ _ hstep | unsent _ _ hstep =>
    obtain hsame | ⟨c, hc, heq | hno⟩ := hmove hstep
    · exact .inl hsame
    · cases heq
      exact .inr ⟨_, hc, fun _ _ _ heq => by cases heq⟩
    · exact .inr ⟨c, hc, fun n taskId executionId heq => absurd heq (hno n taskId executionId)⟩
  | handle _ _ _ hstep =>
    obtain hsame | ⟨c, hc, heq | hno⟩ := hmove hstep
    · exact .inl hsame
    · cases heq
    · exact .inr ⟨c, hc, fun n taskId executionId heq => absurd heq (hno n taskId executionId)⟩
  | reject | lose => exact .inl rfl

end

/-! ## The invariant -/

/-- The request of the call was sent to this worker and names the task. -/
def Named (s : State) (endpoint : String) (k : Nat) (t : TaskID) : Prop :=
  ∃ rpc, s.requests.lookup k = some rpc ∧ rpc.endpoint = endpoint ∧ rpc.taskId = t.toProto

/-- The token of the task is set at the worker of the node that was reserved for it. -/
def Signalled (r : Reporting.State) (t : TaskID) : Prop :=
  ∃ call, r.control.callOf t = some call ∧
    (r.worker call.node.workerEndpoint).runtime.token t = true

structure Inv (carried : ResourceSet → Except Status ResourceSet) (seen : List CancelEvent)
    (s : State) : Prop where
  backed : ∃ taken, Reporting.Backed carried taken s.reporting
  honoured : Honoured seen (Signalled s.reporting) s.control
  requests : ∀ k rpc, s.requests.lookup k = some rpc →
    ∃ t, .called k t ∈ seen ∧ rpc.taskId = t.toProto
  workers : ∀ endpoint, ∃ asked, Heard (Named s endpoint) asked (s.worker endpoint)

theorem inv_initial : Inv carried [] (.initial config) where
  backed := ⟨[], Reporting.backed_initial⟩
  honoured := ControlSystem.honoured_initial _
  requests k rpc h := by simp [State.initial] at h
  workers endpoint := ⟨[], WorkerService.heard_initial _⟩

variable {seen : List CancelEvent}

theorem Inv.watched (hi : Inv carried seen s) : Watched carried s.reporting.cluster := by
  obtain ⟨_, hb⟩ := hi.backed
  exact hb.watched

theorem Inv.ledger (hi : Inv carried seen s) (endpoint : String) :
    WorkerService.Ledger (s.worker endpoint) := hi.watched.traced.workers endpoint

/-- A token that is set is that of a task at the worker of its node. -/
theorem Inv.signalled (hi : Inv carried seen s) {endpoint : String} {t : TaskID}
    (ht : (s.worker endpoint).runtime.token t = true) : Signalled s.reporting t := by
  obtain ⟨_, hb⟩ := hi.backed
  obtain ⟨own, hl, -⟩ := (Option.any_eq_true _ _).mp ht
  obtain ⟨-, call, hcall, rfl⟩ := hb.at_node hl
  exact ⟨call, hcall, ht⟩

/-- A token that is set stays set. -/
theorem Inv.signalled_rest (hi : Inv carried seen s) {b : Reporting.Action} {r : Reporting.State}
    (hstep : Reporting.step carried s.reporting b = some r) {t : TaskID}
    (h : Signalled s.reporting t) : Signalled r t := by
  obtain ⟨call, hcall, ht⟩ := h
  have heffect := Reporting.effect hstep
  refine ⟨call, Reporting.callOf_after heffect hi.watched hcall, ?_⟩
  obtain hsame | ⟨c, hc, -⟩ := worker_move heffect hi.watched call.node.workerEndpoint
  · rw [hsame]
    exact ht
  · obtain ⟨asked, hh⟩ := hi.workers call.node.workerEndpoint
    exact hh.token_after (hi.ledger _) hc ht

theorem Inv.asked_for (hi : Inv carried seen s) {endpoint : String} {t : TaskID}
    (ht : (s.worker endpoint).runtime.token t = true) : ∃ k, .called k t ∈ seen := by
  obtain ⟨asked, hh⟩ := hi.workers endpoint
  obtain ⟨k, rpc, hrpc, -, htask⟩ := hh.named_of_token ht
  obtain ⟨t', hcalled, htask'⟩ := hi.requests k rpc hrpc
  obtain rfl : t = t' := eq_of_toProto_eq (htask.symm.trans htask')
  exact ⟨k, hcalled⟩

/-- A request is put in place of none, or of one that was sent to the same worker for the same
task. -/
theorem Inv.put (hi : Inv carried seen s) {k : Nat} {rpc : CancelRpc}
    (hcalled : ∃ t, .called k t ∈ seen ∧ rpc.taskId = t.toProto)
    (hsame : ∀ old, s.requests.lookup k = some old →
      rpc.endpoint = old.endpoint ∧ rpc.taskId = old.taskId) :
    Inv carried seen (s.setRequest k rpc) where
  backed := hi.backed
  honoured := hi.honoured
  requests k' rpc' h := by
    rw [State.setRequest, UnorderedMap.lookup_insert_eq] at h
    split at h
    · rename_i hk
      cases h
      exact hk ▸ hcalled
    · exact hi.requests k' rpc' h
  workers endpoint := by
    obtain ⟨asked, hh⟩ := hi.workers endpoint
    refine ⟨asked, hh.mono fun k' t hn => ?_⟩
    obtain ⟨old, hold, hendpoint, htask⟩ := hn
    by_cases hk : k' = k
    · subst hk
      obtain ⟨he, ht⟩ := hsame old hold
      exact ⟨rpc, (UnorderedMap.lookup_insert_eq _ _ _ _).trans (if_pos rfl),
        he.trans hendpoint, ht.trans htask⟩
    · exact ⟨old, ((UnorderedMap.lookup_insert_eq _ _ _ _).trans (if_neg hk)).trans hold,
        hendpoint, htask⟩

/-- The rest of the system takes a step. A request that arrives at a worker is one that was sent
there, and an acceptance that the control plane is told of has set the token. -/
theorem Inv.rest_step (hi : Inv carried seen s) {b : Reporting.Action} {r : Reporting.State}
    (hstep : Reporting.step carried s.reporting b = some r)
    (hbegin : ∀ endpoint k taskId executionId,
      b = .cluster (.worker endpoint (.cancelBegin k taskId executionId)) →
        ∀ t, StrongID.fromProto taskId = .ok t → Named s endpoint k t)
    (hreply : ∀ k status t record node, b = returns k status → status.ok = true →
      s.control.cancelPhase k = .located t record node → Signalled s.reporting t) :
    ∃ new, Inv carried (seen ++ new) { s with reporting := r } ∧
      ∀ k t, .called k t ∈ new ↔ b = .cluster (.control (.cancelSnapshot k t)) := by
  have h := Reporting.effect hstep
  obtain ⟨taken, hb⟩ := hi.backed
  have hw := hb.watched
  have hmono : ∀ t, Signalled s.reporting t → Signalled r t := fun _ => hi.signalled_rest hstep
  have hworkers : ∀ endpoint, ∃ asked,
      Heard (Named { s with reporting := r } endpoint) asked (r.worker endpoint) := by
    intro endpoint
    obtain ⟨asked, hh⟩ := hi.workers endpoint
    obtain hsame | ⟨c, hc, hof⟩ := worker_move h hw endpoint
    · rw [hsame]
      exact ⟨asked, hh.mono fun _ _ hn => hn⟩
    · refine hh.step (hi.ledger endpoint) hc (fun _ _ hn => hn) ?_
      rintro n taskId executionId rfl t ht
      exact hbegin endpoint n taskId executionId (hof n taskId executionId rfl) t ht
  have hrest : ∀ new, Honoured (seen ++ new) (Signalled r) r.control →
      Inv carried (seen ++ new) { s with reporting := r } := fun new hh =>
    { backed := ⟨_, hb.step hstep⟩
      honoured := hh
      requests := fun k rpc hl => by
        obtain ⟨t, hcalled, htask⟩ := hi.requests k rpc hl
        exact ⟨t, List.mem_append_left _ hcalled, htask⟩
      workers := hworkers }
  obtain ⟨hsame, hno⟩ | ⟨c, hc, rfl | ⟨hnone, hno⟩⟩ := control_step h hw
  · refine ⟨[], hrest [] ?_, fun k t => by simpa using hno _⟩
    rw [List.append_nil, hsame]
    exact hi.honoured.mono hmono
  · refine ⟨ControlSystem.cancelEvents s.control c, hrest _ ?_, fun k t => ⟨fun hmem => ?_, ?_⟩⟩
    · refine hi.honoured.step hc hmono ?_
      rintro k status t record node rfl
      exact hreply k status t record node rfl
    · rw [ControlSystem.called_of_mem hmem]
    · intro heq
      cases heq
      exact List.mem_singleton.mpr rfl
  · refine ⟨[], hrest [] ?_, fun k t => by simpa using hno _⟩
    have hh := hi.honoured.step hc hmono (by rintro k status t record node rfl; cases hnone)
    have hevents : ControlSystem.cancelEvents s.control c = [] :=
      (ControlSystem.step_cancels hnone hc).2
    rwa [hevents] at hh

/-- An OK that is on its way to the control plane has been given for the task of the call. -/
theorem Inv.replied (hi : Inv carried seen s) {k : Nat} {rpc : CancelRpc} {status : Status}
    (hrpc : s.requests.lookup k = some rpc)
    (hreplied : (s.worker rpc.endpoint).cancels.lookup k = some (.replied status))
    (hok : status.ok = true) {t : TaskID} {record : DistributedTaskRecord} {node : NodeRecord}
    (hphase : s.control.cancelPhase k = .located t record node) : Signalled s.reporting t := by
  obtain ⟨asked, hh⟩ := hi.workers rpc.endpoint
  obtain ⟨t', ⟨rpc', hrpc', -, htask'⟩, ht'⟩ := hh.phases k _ hreplied hok
  rw [hrpc] at hrpc'
  cases hrpc'
  -- the request names the task of its call, which is the one in its phase
  obtain ⟨t'', hcalled, htask⟩ := hi.requests k rpc hrpc
  have hcall := hi.honoured.calls.calls k
  rw [hphase] at hcall
  obtain rfl := (hcall.1 t'').mp hcalled
  obtain rfl : t' = t'' := eq_of_toProto_eq (htask'.symm.trans htask)
  exact hi.signalled ht'

theorem Inv.step (hi : Inv carried seen s) (h : step carried s a = some u) :
    ∃ new, Inv carried (seen ++ new) u ∧ ∀ k t, .called k t ∈ new ↔
      a = .reporting (.cluster (.control (.cancelSnapshot k t))) := by
  cases effect h with
  | @reporting a r hno hstep =>
    obtain ⟨new, hu, hnew⟩ := hi.rest_step hstep
      (by rintro endpoint k taskId executionId rfl; cases hno)
      (by rintro k status t record node rfl; cases hno)
    exact ⟨new, hu, fun k t => (hnew k t).trans (by simp)⟩
  | @send k t record node hphase hnew =>
    have hcall := hi.honoured.calls.calls k
    rw [hphase] at hcall
    have hcalled : .called k t ∈ seen := (hcall.1 t).mpr rfl
    refine ⟨[], ?_, by simp⟩
    rw [List.append_nil]
    refine hi.put ⟨t, hcalled, by rw [hcall.2]⟩ fun old hold => ?_
    rw [hnew] at hold
    cases hold
  | @refuse a k status r ha hno hstep =>
    obtain ⟨new, hu, hnew⟩ := hi.rest_step hstep (fun _ _ _ _ heq => by cases heq)
      (by
        rintro k' status' t record node heq hok
        cases heq
        rw [hno] at hok
        cases hok)
    exact ⟨new, hu, fun k t => (hnew k t).trans (by simp [returns, ha])⟩
  | @deliver k rpc r hrpc hstep =>
    obtain ⟨t, hcalled, htask⟩ := hi.requests k rpc hrpc
    obtain ⟨new, hu, hnew⟩ := hi.rest_step hstep
      (by
        rintro endpoint k' taskId executionId heq t' ht'
        cases heq
        rw [htask, StrongID.fromProto_toProto] at ht'
        cases ht'
        exact ⟨rpc, hrpc, rfl, htask⟩)
      (fun _ _ _ _ _ heq => by cases heq)
    refine ⟨new, hu.put ⟨t, List.mem_append_left _ hcalled, htask⟩ fun old hold => ?_,
      fun k t => (hnew k t).trans (by simp)⟩
    have heq : some rpc = some old := hrpc.symm.trans hold
    cases heq
    exact ⟨rfl, rfl⟩
  | @reply k rpc status r hrpc hreplied hstep =>
    obtain ⟨new, hu, hnew⟩ := hi.rest_step hstep (fun _ _ _ _ heq => by cases heq)
      (by
        rintro k' status' t record node heq hok hphase
        cases heq
        rw [Status.fromProto_ok] at hok
        exact hi.replied hrpc hreplied hok hphase)
    exact ⟨new, hu, fun k t => (hnew k t).trans (by simp [returns])⟩

/-! ## Runs -/

variable {as : List Action}

theorem inv_run (h : Run.run (step carried) as (.initial config) = some s) :
    ∃ seen, Inv carried seen s ∧ ∀ k t, .called k t ∈ seen ↔ CalledFor as k t := by
  have hkept : ∀ taken (s : State) a u,
      (∃ seen, Inv carried seen s ∧ ∀ k t, .called k t ∈ seen ↔ CalledFor taken k t) → True →
      step carried s a = some u →
      ∃ seen, Inv carried seen u ∧ ∀ k t, .called k t ∈ seen ↔ CalledFor (taken ++ [a]) k t := by
    rintro taken s a u ⟨seen, hi, hseen⟩ - hstep
    obtain ⟨new, hu, hnew⟩ := hi.step hstep
    exact ⟨seen ++ new, hu, fun k t => by simp [CalledFor, hseen, hnew, eq_comm]⟩
  have hinitial : ∃ seen, Inv carried seen (.initial config) ∧
      ∀ k t, .called k t ∈ seen ↔ CalledFor [] k t := ⟨[], inv_initial, by simp [CalledFor]⟩
  have hrun := Run.invariant_observed hkept (Run.along_true as _) h hinitial
  rwa [List.nil_append, Run.observed_labels h] at hrun

/-- A token that is set in a run has been asked for. -/
theorem asked_run (h : Run.run (step carried) as (.initial config) = some s) {endpoint : String}
    {t : TaskID} (ht : (s.worker endpoint).runtime.token t = true) : ∃ k, CalledFor as k t := by
  obtain ⟨seen, hi, hseen⟩ := inv_run h
  obtain ⟨k, hcalled⟩ := hi.asked_for ht
  exact ⟨k, (hseen k t).mp hcalled⟩

/-- What a run does to the rest of the system is a run of it, with the same exits. -/
theorem rest_run {r : State} (h : Run.run (step carried) as r = some s) :
    ∃ bs, Run.run (Reporting.step carried) bs r.reporting = some s.reporting ∧
      Run.observed (Reporting.step carried) Reporting.exits bs r.reporting =
        Run.observed (step carried) exits as r ∧
      ∀ b ∈ bs, .reporting b ∈ as ∨ isCancel b = true := by
  induction as generalizing r with
  | nil =>
    cases h
    exact ⟨[], rfl, rfl, by simp⟩
  | cons a as ih =>
    obtain ⟨u, hstep, hrun⟩ := Run.run_cons_some h
    obtain ⟨bs, hbs, hexits, hof⟩ := ih hrun
    have htail : ∀ b ∈ bs, .reporting b ∈ a :: as ∨ isCancel b = true := fun b hmem =>
      (hof b hmem).imp (List.mem_cons_of_mem a) id
    rw [Run.observed_cons hstep]
    obtain ⟨hsame, hnone⟩ | ⟨b, hb, hstepexits, hof'⟩ := step_reporting (effect hstep)
    · rw [hsame] at hbs hexits
      exact ⟨bs, hbs, by rw [hnone, hexits]; rfl, htail⟩
    · refine ⟨b :: bs, by rw [Run.run_cons, hb]; exact hbs, ?_, fun c hmem => ?_⟩
      · rw [Run.observed_cons hb, hexits, hstepexits]
      · obtain rfl | hmem := List.mem_cons.mp hmem
        · exact hof'.imp (fun heq => by simp [heq]) id
        · exact htail c hmem

/-! ## The results -/

/-- A cancellation that was accepted has set the token of its task, at the worker of the node
that was reserved for the task. -/
structure CancelsSignal (as : List Action) (s : State) : Prop where
  accepted : ∀ k status, s.control.cancelPhase k = .returned status → status.ok = true →
    ∃ t, (∀ t', CalledFor as k t' ↔ t' = t) ∧ Signalled s.reporting t
  requested : ∀ t record, s.control.record t = some record → record.state = .cancelRequested →
    Signalled s.reporting t

/-- A cancellation that the control plane confirms has reached its task at its worker. -/
theorem cancels_signal (h : Run.run (step carried) as (.initial config) = some s) :
    CancelsSignal as s := by
  obtain ⟨seen, hi, hseen⟩ := inv_run h
  refine ⟨fun k status hphase hok => ?_, hi.honoured.requested⟩
  obtain ⟨t, hmade, ht⟩ := hi.honoured.returned k status hphase hok
  exact ⟨t, fun t' => (hseen k t').symm.trans (hmade t'), ht⟩

namespace Sample

/-- A task is accepted, and is in its handler. -/
def running : List Action :=
  (Cluster.Sample.submit ++ Cluster.Sample.accept 0 ++
    (Cluster.Action.reply (ControlSystem.Sample.task 1) ::
      (LocalSystem.Action.loop .wait :: LocalSystem.Sample.schedule (.ofByte 1) ++
        LocalSystem.Sample.execute.take 3).map
          fun a => .worker Cluster.Sample.endpoint (.runtime a))).map fun a => .reporting (.cluster a)

/-- The request of the call is answered by the worker. -/
def answer (k : Nat) : List Action :=
  [.send k, .deliver k] ++
    [WorkerService.Action.cancelCheck k, .cancelRuntime k, .runtime (.call .cancelTask),
      .runtime (.call (.cancelReturn none)), .cancelReply k].map
        fun a => .reporting (.cluster (.worker Cluster.Sample.endpoint a))

/-- A client cancels the task. -/
def cancelled : List Action :=
  running ++ [ControlSystem.Action.cancelSnapshot 1 (ControlSystem.Sample.task 1), .cancelLocate 1].map
      (fun a => .reporting (.cluster (.control a))) ++
    answer 1 ++ [.reply 1, .reporting (.cluster (.control (.cancelPublish 1)))]

set_option maxRecDepth 4000 in
theorem run_cancelled : Run.run (step .ok) cancelled (.initial Cluster.Sample.config) =
    some (Run.stateAfter (step .ok) cancelled (.initial Cluster.Sample.config)) :=
  Run.run_stateAfter (by decide)

end Sample

theorem cancels_signal_cancelled : ∃ t, CalledFor Sample.cancelled 1 t ∧
    Signalled (Run.stateAfter (step .ok) Sample.cancelled
      (.initial Cluster.Sample.config)).reporting t := by
  have hphase : (Run.stateAfter (step .ok) Sample.cancelled
      (.initial Cluster.Sample.config)).control.cancelPhase 1 = .returned .OK := rfl
  obtain ⟨t, hmade, ht⟩ := (cancels_signal Sample.run_cancelled).accepted 1 .OK hphase rfl
  exact ⟨t, (hmade t).mpr rfl, ht⟩

/-- A call of `HandleNodeDead` for the lifetime has begun. -/
def Died (as : List Action) (nodeId : NodeID) (incarnation : Nat) : Prop :=
  ∃ order, .reporting (.cluster (.control (.deadBegin nodeId incarnation order))) ∈ as

/-- No token is set, and no task withdrawn, but for a client. -/
structure CancelsAskedFor (left : List Exit) (as : List Action) (s : State) : Prop where
  tokens : ∀ endpoint t, (s.worker endpoint).runtime.token t = true → ∃ k, CalledFor as k t
  /-- A task that has ended with its handler never entered, or never left. -/
  withdrawn : ∀ t record call, s.control.record t = some record →
    isTerminal record.state = true → s.control.callOf t = some call →
    left.filter (fun e => e.taskId = t) = [] →
      Died as call.node.nodeId call.node.incarnation ∨ ∃ k, CalledFor as k t

theorem died_of_rest {bs : List Reporting.Action}
    (hof : ∀ b ∈ bs, .reporting b ∈ as ∨ isCancel b = true) {nodeId : NodeID} {incarnation : Nat}
    (h : Reporting.Died bs nodeId incarnation) : Died as nodeId incarnation := by
  obtain ⟨order, hmem⟩ := h
  obtain hin | hcancel := hof _ hmem
  · exact ⟨order, hin⟩
  · cases hcancel

/-- The terminal records of a run are backed by the exits of the run. -/
theorem backed_run (h : Run.run (step carried) as (.initial config) = some s) :
    ∃ bs, Reporting.Backed carried bs s.reporting ∧
      Accounted (Run.observed (step carried) exits as (.initial config)) s.reporting.cluster ∧
      ∀ nodeId incarnation, Reporting.Died bs nodeId incarnation → Died as nodeId incarnation := by
  obtain ⟨bs, hrun, hexits, hof⟩ := rest_run h
  obtain ⟨hb, ho⟩ := Reporting.backed_run hrun
  rw [← hexits]
  exact ⟨bs, hb, ho, fun _ _ => died_of_rest hof⟩

/-- No token is set that no client asked for, and a task that ended without being executed was
cancelled by a client or its node died. -/
theorem cancels_asked_for (h : Run.run (step carried) as (.initial config) = some s) :
    CancelsAskedFor (Run.observed (step carried) exits as (.initial config)) as s := by
  refine ⟨fun _ _ => asked_run h, fun t record call hl hterm hcall hnone => ?_⟩
  obtain ⟨bs, hb, ho, hdead⟩ := backed_run h
  cases hb.records t record hl hterm with
  | @nodeDied call' hcall' hdied =>
    obtain rfl : call = call' := Option.some.inj (hcall.symm.trans hcall')
    exact .inl (hdead _ _ hdied)
  | @reported call' own hcall' hown hended =>
    have hends := (ho call'.node.workerEndpoint).ended t own hown hended
    generalize hexits : exitsOf _ t = left at hends
    cases hends with
    | executed exit =>
      have hleft := mem_of_exitsOf (hexits ▸ List.mem_singleton_self exit)
      have hin : (⟨_, t, exit⟩ : Exit) ∈ List.filter (fun e => e.taskId = t) _ :=
        List.mem_filter.mpr ⟨hleft, decide_eq_true rfl⟩
      rw [hnone] at hin
      cases hin
    | withdrawn _ htoken =>
      exact .inr (asked_run h ((LocalSystem.token_of_record hown).trans htoken))

set_option maxRecDepth 4000 in
theorem cancels_asked_for_cancelled :
    ((Run.stateAfter (step .ok) Sample.cancelled (.initial Cluster.Sample.config)).worker
      Cluster.Sample.endpoint).runtime.token (ControlSystem.Sample.task 1) = true ∧
    ∃ k, CalledFor Sample.cancelled k (ControlSystem.Sample.task 1) := by
  have htoken : ((Run.stateAfter (step .ok) Sample.cancelled
      (.initial Cluster.Sample.config)).worker Cluster.Sample.endpoint).runtime.token
        (ControlSystem.Sample.task 1) = true := by decide
  exact ⟨htoken, (cancels_asked_for Sample.run_cancelled).tokens _ _ htoken⟩

end Cancelling

end Cluster

end AgentRuntime
