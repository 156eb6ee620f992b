import AgentRuntime.Control.TaskSteps
import Mathlib.Data.List.Chain

/-!
# CancelTask under every race

A `CancelTask` call works on a snapshot it took before its RPC. What happens
in between (a completion, the death of the node, an erasure, another
cancellation) is seen again only by its second section.
-/
namespace AgentRuntime

namespace ControlSystem

variable {s u : State}

inductive CancelEvent where
  /-- The call `k` is made for the task. -/
  | called (k : Nat) (t : TaskID)
  /-- The worker accepts the cancellation that the call `k` sends it. -/
  | accepted (k : Nat) (t : TaskID) (executionId : ExecutionID)

def cancelEvents (s : State) : Action → List CancelEvent
  | .cancelSnapshot k t => [.called k t]
  | .cancelDelivered k status =>
    match s.cancelPhase k with
    | .located _ record _ =>
      if status.ok then [.accepted k record.taskId record.executionId] else []
    | _ => []
  | _ => []

/-- The call that a step belongs to. -/
def cancelCall : Action → Option Nat
  | .cancelSnapshot k _ | .cancelLocate k | .cancelDelivered k _ | .cancelPublish k => some k
  | _ => none

/-- The call has been made, for this task and no other. -/
def MadeFor (seen : List CancelEvent) (k : Nat) (t : TaskID) : Prop :=
  ∀ t', .called k t' ∈ seen ↔ t' = t

/-- A step of the run that belongs to the call `k`. -/
structure CancelStep (as : List Action) (k : Nat) (before : List Action) (a : Action)
    (s u : State) : Prop where
  within : ∃ after, as = before ++ a :: after
  reached : Run.run step before .initial = some s
  taken : step s a = some u
  call : cancelCall a = some k

/-- What a step of a call for the task `t` may do, after the events in `seen`. -/
structure CancelStepSafe (seen : List CancelEvent) (k : Nat) (t : TaskID) (a : Action)
    (s u : State) : Prop where
  pools : u.registry = s.registry
  others : ∀ t', t' ≠ t → u.record t' = s.record t'
  terminal : ∀ record, s.record t = some record → isTerminal record.state = true →
    u.record t = some record
  requested : u.record t ≠ s.record t → ∃ old, s.record t = some old ∧ old.state = .running ∧
    u.record t = some { old with state := .cancelRequested } ∧
    .accepted k t old.executionId ∈ seen
  succeeds : ∀ status, u.cancelPhase k = .returned status → status.ok = true →
    ∃ record, u.record t = some record ∧
      (a = .cancelSnapshot k t ∧ record.state = .cancelRequested ∨
       a = .cancelPublish k ∧ (isTerminal record.state = true ∨
        record.state = .cancelRequested ∧ .accepted k t record.executionId ∈ seen))

/-! ## The steps of a call -/

theorem isTerminal_eq_false {state : DistributedTaskState} :
    isTerminal state = false ↔ state = .running ∨ state = .cancelRequested := by
  cases state <;> simp [isTerminal]

/-- Every step of the call `k`, with the state it leads to. -/
inductive CancelMove (s : State) (k : Nat) : Action → State → Prop where
  | refused (t : TaskID) (status : Status) (hphase : s.cancelPhase k = .idle)
      (hok : status.ok = true → ∃ record, s.record t = some record ∧
        record.state = .cancelRequested) :
      CancelMove s k (.cancelSnapshot k t) (s.setCancel k (.returned status))
  | began (t : TaskID) (record : DistributedTaskRecord) (hphase : s.cancelPhase k = .idle)
      (hrecord : s.record t = some record) :
      CancelMove s k (.cancelSnapshot k t) (s.setCancel k (.snapshot t record))
  | lost (t : TaskID) (record : DistributedTaskRecord) (status : Status)
      (hphase : s.cancelPhase k = .snapshot t record) (hno : status.ok = false) :
      CancelMove s k (.cancelLocate k) (s.setCancel k (.returned status))
  | located (t : TaskID) (record : DistributedTaskRecord) (node : NodeRecord)
      (hphase : s.cancelPhase k = .snapshot t record) :
      CancelMove s k (.cancelLocate k) (s.setCancel k (.located t record node))
  | undelivered (t : TaskID) (record : DistributedTaskRecord) (node : NodeRecord)
      (status : Status) (hphase : s.cancelPhase k = .located t record node)
      (hno : status.ok = false) :
      CancelMove s k (.cancelDelivered k status) (s.setCancel k (.returned status))
  | delivered (t : TaskID) (record : DistributedTaskRecord) (node : NodeRecord)
      (status : Status) (hphase : s.cancelPhase k = .located t record node)
      (hok : status.ok = true) :
      CancelMove s k (.cancelDelivered k status) (s.setCancel k (.delivered t record))
  | overtaken (t : TaskID) (record : DistributedTaskRecord) (status : Status)
      (hphase : s.cancelPhase k = .delivered t record)
      (hok : status.ok = true → ∃ current, s.record t = some current ∧
        isTerminal current.state = true) :
      CancelMove s k (.cancelPublish k) (s.setCancel k (.returned status))
  | published (t : TaskID) (record current : DistributedTaskRecord)
      (hphase : s.cancelPhase k = .delivered t record) (hcurrent : s.record t = some current)
      (hlive : isTerminal current.state = false)
      (hexec : current.executionId = record.executionId) :
      CancelMove s k (.cancelPublish k) ((s.setPlane { s.plane with
        tasks := s.plane.tasks.insert t { current with state := .cancelRequested } }).setCancel k
          (.returned .OK))

theorem cancelMove {a : Action} {k : Nat} (hk : cancelCall a = some k) (h : step s a = some u) :
    CancelMove s k a u := by
  cases a with
  | cancelSnapshot k' t =>
    cases hk
    simp only [step] at h
    split at h
    · rename_i hphase
      cases h
      simp only [cancelSnapshot]
      split
      · exact .refused t _ hphase (by simp)
      · simp only [ControlPlane.cancelSnapshot]
        cases hl : s.plane.tasks.lookup t with
        | none => exact .refused t _ hphase (by simp)
        | some record =>
          by_cases hterm : isTerminal record.state = true
          · simp only [hterm, if_true]
            exact .refused t _ hphase (by simp)
          by_cases hreq : record.state = .cancelRequested
          · simp only [hreq, if_true]
            exact .refused t _ hphase (fun _ => ⟨record, hl, hreq⟩)
          · simp only [hterm, hreq, if_false]
            exact .began t record hphase hl
    · cases h
  | cancelLocate k' =>
    cases hk
    simp only [step] at h
    split at h
    · rename_i t record hphase
      cases h
      simp only [cancelLocate, ControlPlane.cancelLocate, NodeRegistry.getNode]
      cases s.plane.registry.nodes.lookup record.nodeId with
      | none => exact .lost t record _ hphase rfl
      | some stored =>
        by_cases hinc : stored.record.incarnation ≠ record.nodeIncarnation
        · simp only [if_pos hinc]
          exact .lost t record _ hphase rfl
        by_cases hdead : stored.record.state = .dead
        · simp only [if_neg hinc, if_pos hdead]
          exact .lost t record _ hphase rfl
        · simp only [if_neg hinc, if_neg hdead]
          exact .located t record _ hphase
    · cases h
  | cancelDelivered k' status =>
    cases hk
    simp only [step] at h
    split at h
    · rename_i t record node hphase
      cases h
      cases hok : status.ok with
      | true => exact .delivered t record node status hphase hok
      | false => exact .undelivered t record node status hphase hok
    · cases h
  | cancelPublish k' =>
    cases hk
    simp only [step] at h
    split at h
    · rename_i t record _ hphase
      cases h
      simp only [ControlPlane.cancelPublish]
      cases hl : s.plane.tasks.lookup t with
      | none => exact .overtaken t record _ hphase (by simp)
      | some current =>
        by_cases hexec : current.executionId ≠ record.executionId
        · simp only [if_pos hexec]
          exact .overtaken t record _ hphase (by simp)
        by_cases hterm : isTerminal current.state = true
        · simp only [if_neg hexec, hterm, if_true]
          exact .overtaken t record _ hphase (fun _ => ⟨current, hl, hterm⟩)
        · simp only [if_neg hexec, hterm]
          exact .published t record current hphase hl (by simpa using hterm) (not_not.mp hexec)
    · cases h
  | _ => cases hk

/-- A step of another kind leaves the cancellations alone. -/
theorem step_cancels {a : Action} (hk : cancelCall a = none) (h : step s a = some u) :
    u.cancels = s.cancels ∧ cancelEvents s a = [] := by
  refine ⟨?_, by cases a <;> first | rfl | cases hk⟩
  cases a with
  | registerNode | heartbeat | updateLiveness | removeNode => cases h; rfl
  | submitReserve t e hasOut submission =>
    obtain ⟨-, ⟨status, rfl⟩ | ⟨id, stored, -, -, -, -, rfl⟩⟩ := step_submitReserve h <;> rfl
  | submitPublish t => obtain ⟨call, -, -, rfl⟩ := step_submitPublish h; rfl
  | submitDispatched t status => obtain ⟨call, -, rfl⟩ := step_submitDispatched h; rfl
  | submitErase t => obtain ⟨call, status, -, -, rfl⟩ := step_submitErase h; rfl
  | submitRelease t => obtain ⟨call, status, -, rfl⟩ := step_submitRelease h; rfl
  | cancelSnapshot | cancelLocate | cancelDelivered | cancelPublish => cases hk
  | report t e state terminalStatus result media =>
    obtain ⟨-, ⟨rfl, -⟩ | ⟨record, -, -, -, -, -, rfl⟩⟩ := step_report h <;> rfl
  | deadBegin nodeId incarnation order => obtain ⟨-, -, rfl⟩ := step_deadBegin h; rfl
  | deadNext =>
    obtain ⟨call, -, ⟨-, rfl⟩ | ⟨t, rest, -, ⟨-, rfl⟩ | ⟨-, rfl⟩ | ⟨record, -, -, -, rfl⟩⟩⟩ :=
      step_deadNext h <;> rfl

/-! ## What the events say about a call -/

@[simp] theorem setCancel_cancelPhase (s : State) (k k' : Nat) (phase : CancelPhase) :
    (s.setCancel k phase).cancelPhase k' = if k' = k then phase else s.cancelPhase k' := by
  simp only [State.cancelPhase, State.setCancel, UnorderedMap.lookup_insert_eq]
  split <;> rfl

@[simp] theorem setPlane_cancelPhase (s : State) (cp : ControlPlane) (k : Nat) :
    (s.setPlane cp).cancelPhase k = s.cancelPhase k := rfl

/-- What has been seen of a call in each of its phases. -/
def CallOk (seen : List CancelEvent) (k : Nat) : CancelPhase → Prop
  | .idle => ∀ t, .called k t ∉ seen
  | .snapshot t record => MadeFor seen k t ∧ record.taskId = t
  | .located t record _ => MadeFor seen k t ∧ record.taskId = t
  | .delivered t record => MadeFor seen k t ∧ .accepted k t record.executionId ∈ seen
  | .returned _ => ∃ t, MadeFor seen k t

structure Calls (seen : List CancelEvent) (s : State) : Prop where
  recorded : Recorded s
  calls : ∀ k, CallOk seen k (s.cancelPhase k)

theorem calls_initial : Calls [] .initial where
  recorded := recorded_initial
  calls := by
    intro k
    simp [State.cancelPhase, State.initial, CallOk]

theorem MadeFor.append {seen new : List CancelEvent} {k : Nat} {t : TaskID}
    (h : MadeFor seen k t) (hnew : ∀ t', .called k t' ∉ new) : MadeFor (seen ++ new) k t := by
  intro t'
  simp [hnew t', h t']

theorem CallOk.append {seen new : List CancelEvent} {k : Nat} {phase : CancelPhase}
    (h : CallOk seen k phase) (hnew : ∀ t, .called k t ∉ new) : CallOk (seen ++ new) k phase := by
  cases phase with
  | idle =>
    intro t hmem
    obtain hold | hn := List.mem_append.mp hmem
    · exact h t hold
    · exact hnew t hn
  | snapshot t record => exact ⟨h.1.append hnew, h.2⟩
  | located t record node => exact ⟨h.1.append hnew, h.2⟩
  | delivered t record => exact ⟨h.1.append hnew, List.mem_append_left _ h.2⟩
  | returned status =>
    obtain ⟨t, hmade⟩ := h
    exact ⟨t, hmade.append hnew⟩

theorem madeFor_called {seen : List CancelEvent} {k : Nat} {t : TaskID}
    (h : ∀ t, .called k t ∉ seen) : MadeFor (seen ++ [.called k t]) k t := by
  intro t'
  simp [h t']

theorem called_of_mem {a : Action} {k : Nat} {t : TaskID} (h : .called k t ∈ cancelEvents s a) :
    a = .cancelSnapshot k t := by
  cases a with
  | cancelSnapshot k' t' =>
    simp only [cancelEvents, List.mem_singleton, CancelEvent.called.injEq] at h
    rw [h.1, h.2]
  | cancelDelivered k' status =>
    simp only [cancelEvents] at h
    split at h
    · split at h <;> simp at h
    · cases h
  | _ => cases h

theorem not_called {a : Action} {k : Nat} (h : ∀ t, a ≠ .cancelSnapshot k t) (t : TaskID) :
    .called k t ∉ cancelEvents s a :=
  fun hm => h t (called_of_mem hm)

theorem cancelEvents_delivered {k : Nat} {t : TaskID} {record : DistributedTaskRecord}
    {node : NodeRecord} {status : Status} (hphase : s.cancelPhase k = .located t record node)
    (hok : status.ok = true) : cancelEvents s (.cancelDelivered k status) =
      [.accepted k record.taskId record.executionId] := by
  simp [cancelEvents, hphase, hok]

theorem Recorded.taskId {t : TaskID} {record : DistributedTaskRecord} (h : Recorded s)
    (hr : s.record t = some record) : record.taskId = t := by
  obtain ⟨call, hsame, -⟩ := h t record hr
  exact hsame.taskId

/-- The call that takes a step is in the phase that the step leaves. -/
theorem CancelMove.callOk {seen : List CancelEvent} {a : Action} {k : Nat} (hc : Calls seen s)
    (h : CancelMove s k a u) : CallOk (seen ++ cancelEvents s a) k (u.cancelPhase k) := by
  have hk := hc.calls k
  cases h with
  | refused t status hphase =>
    rw [hphase] at hk
    rw [setCancel_cancelPhase, if_pos rfl]
    exact ⟨t, madeFor_called hk⟩
  | began t record hphase hrecord =>
    rw [hphase] at hk
    rw [setCancel_cancelPhase, if_pos rfl]
    exact ⟨madeFor_called hk, hc.recorded.taskId hrecord⟩
  | lost t record status hphase =>
    rw [hphase] at hk
    rw [setCancel_cancelPhase, if_pos rfl]
    exact ⟨t, hk.1.append (not_called (by simp))⟩
  | located t record node hphase =>
    rw [hphase] at hk
    rw [setCancel_cancelPhase, if_pos rfl]
    exact ⟨hk.1.append (not_called (by simp)), hk.2⟩
  | undelivered t record node status hphase hno =>
    rw [hphase] at hk
    rw [setCancel_cancelPhase, if_pos rfl]
    exact ⟨t, hk.1.append (not_called (by simp))⟩
  | delivered t record node status hphase hok =>
    rw [hphase] at hk
    rw [setCancel_cancelPhase, if_pos rfl]
    refine ⟨hk.1.append (not_called (by simp)), ?_⟩
    rw [cancelEvents_delivered hphase hok, hk.2]
    simp
  | overtaken t record status hphase =>
    rw [hphase] at hk
    rw [setCancel_cancelPhase, if_pos rfl]
    exact ⟨t, hk.1.append (not_called (by simp))⟩
  | published t record current hphase =>
    rw [hphase] at hk
    rw [setCancel_cancelPhase, if_pos rfl]
    exact ⟨t, hk.1.append (not_called (by simp))⟩

/-- A call's steps leave the phases of the others alone. -/
theorem CancelMove.others {a : Action} {k k' : Nat} (h : CancelMove s k a u) (hk : k' ≠ k) :
    u.cancelPhase k' = s.cancelPhase k' := by
  cases h <;> simp [hk]

theorem calls_step {seen : List CancelEvent} {a : Action} (hc : Calls seen s)
    (h : step s a = some u) : Calls (seen ++ cancelEvents s a) u := by
  refine ⟨hc.recorded.step h, ?_⟩
  intro k
  cases hcall : cancelCall a with
  | none =>
    obtain ⟨hcancels, hevents⟩ := step_cancels hcall h
    have hk := hc.calls k
    rw [hevents, List.append_nil]
    rwa [State.cancelPhase, hcancels]
  | some k₀ =>
    have hmove := cancelMove hcall h
    by_cases hk : k = k₀
    · subst hk
      exact hmove.callOk hc
    · rw [hmove.others hk]
      refine (hc.calls k).append (not_called fun t ha => ?_)
      subst ha
      cases hcall
      exact hk rfl

/-! ## Each step of a call is safe -/

/-- A step that only moves the call on. -/
theorem CancelStepSafe.of_quiet {seen : List CancelEvent} {k : Nat} {t : TaskID} {a : Action}
    {phase : CancelPhase} (h : ∀ status, phase = .returned status → status.ok = true →
      ∃ record, s.record t = some record ∧
        (a = .cancelSnapshot k t ∧ record.state = .cancelRequested ∨
         a = .cancelPublish k ∧ (isTerminal record.state = true ∨
          record.state = .cancelRequested ∧ .accepted k t record.executionId ∈ seen))) :
    CancelStepSafe seen k t a s (s.setCancel k phase) where
  pools := rfl
  others := fun _ _ => rfl
  terminal := fun _ hr _ => hr
  requested := fun hne => absurd rfl hne
  succeeds := by
    intro status hs
    rw [setCancel_cancelPhase, if_pos rfl] at hs
    exact h status hs

theorem CancelMove.safe {seen : List CancelEvent} {a : Action} {k : Nat} (hc : Calls seen s)
    (h : CancelMove s k a u) :
    ∃ t, MadeFor (seen ++ cancelEvents s a) k t ∧ CancelStepSafe seen k t a s u := by
  have hk := hc.calls k
  -- a step that returns an error, or does not return, only moves the call on
  have hmoved : ∀ phase, (∀ status, phase = .returned status → status.ok = false) → ∀ t,
      CancelStepSafe seen k t a s (s.setCancel k phase) := by
    intro phase hno t
    refine .of_quiet fun status hs hok => ?_
    rw [hno status hs] at hok
    cases hok
  cases h with
  | refused t status hphase hok =>
    rw [hphase] at hk
    refine ⟨t, madeFor_called hk, .of_quiet ?_⟩
    rintro _ ⟨⟩ hs
    obtain ⟨record, hrecord, hstate⟩ := hok hs
    exact ⟨record, hrecord, .inl ⟨rfl, hstate⟩⟩
  | began t record hphase hrecord =>
    rw [hphase] at hk
    exact ⟨t, madeFor_called hk, hmoved _ (by simp) t⟩
  | lost t record status hphase hno =>
    rw [hphase] at hk
    exact ⟨t, hk.1.append (not_called (by simp)), hmoved _ (by simp [hno]) t⟩
  | located t record node hphase =>
    rw [hphase] at hk
    exact ⟨t, hk.1.append (not_called (by simp)), hmoved _ (by simp) t⟩
  | undelivered t record node status hphase hno =>
    rw [hphase] at hk
    exact ⟨t, hk.1.append (not_called (by simp)), hmoved _ (by simp [hno]) t⟩
  | delivered t record node status hphase hok =>
    rw [hphase] at hk
    exact ⟨t, hk.1.append (not_called (by simp)), hmoved _ (by simp) t⟩
  | overtaken t record status hphase hok =>
    rw [hphase] at hk
    refine ⟨t, hk.1.append (not_called (by simp)), .of_quiet ?_⟩
    rintro _ ⟨⟩ hs
    obtain ⟨current, hcurrent, hterm⟩ := hok hs
    exact ⟨current, hcurrent, .inr ⟨rfl, .inl hterm⟩⟩
  | published t record current hphase hcurrent hlive hexec =>
    rw [hphase] at hk
    obtain ⟨hmade, haccepted⟩ := hk
    rw [← hexec] at haccepted
    have hrec := record_of_insert (s := s) (u := (s.setPlane { s.plane with
      tasks := s.plane.tasks.insert t { current with state := .cancelRequested } }).setCancel k
        (.returned .OK)) rfl
    refine ⟨t, hmade.append (not_called (by simp)), rfl, ?_, ?_, ?_, ?_⟩
    · intro t' ht
      rw [hrec, if_neg ht]
    · intro r hr hterm
      rw [hcurrent] at hr
      cases hr
      rw [hlive] at hterm
      cases hterm
    · intro hne
      rw [hrec, if_pos rfl] at hne ⊢
      refine ⟨current, hcurrent, ?_, rfl, haccepted⟩
      obtain hrunning | hrequested := isTerminal_eq_false.mp hlive
      · exact hrunning
      · rw [hcurrent, ← hrequested] at hne
        exact absurd rfl hne
    · intro status hs _
      refine ⟨{ current with state := .cancelRequested }, by rw [hrec, if_pos rfl], .inr ⟨rfl, ?_⟩⟩
      exact .inr ⟨rfl, haccepted⟩

/-- A step that changes the control plane is the last one of its call, which returns OK. -/
theorem CancelMove.returns_ok {a : Action} {k : Nat} (h : CancelMove s k a u)
    (hne : u.plane ≠ s.plane) : u.cancelPhase k = .returned .OK := by
  cases h with
  | published => simp
  | _ => exact absurd rfl hne

/-- A call that has returned has returned for good. -/
theorem returned_step {a : Action} {k : Nat} {status : Status} (h : step s a = some u)
    (hs : s.cancelPhase k = .returned status) : u.cancelPhase k = .returned status := by
  cases hcall : cancelCall a with
  | none =>
    obtain ⟨hcancels, -⟩ := step_cancels hcall h
    rwa [State.cancelPhase, hcancels]
  | some k₀ =>
    have hmove := cancelMove hcall h
    by_cases hk : k = k₀
    · subst hk
      cases hmove with
      | refused _ _ hphase | began _ _ hphase | lost _ _ _ hphase | located _ _ _ hphase
      | undelivered _ _ _ _ hphase | delivered _ _ _ _ hphase | overtaken _ _ _ hphase
      | published _ _ _ hphase =>
        rw [hphase] at hs
        cases hs
    · rw [hmove.others hk, hs]

/-! ## The states of a record -/

/-- The transitions of the diagram of `DistributedTaskState`. -/
def Follows : DistributedTaskState → DistributedTaskState → Prop
  | .running, next => next = .cancelRequested ∨ isTerminal next = true
  | .cancelRequested, next => isTerminal next = true
  | .succeeded, _ | .failed, _ | .canceled, _ => False

/-- A path of the diagram from its entry on. -/
structure DiagramPath (states : List DistributedTaskState) : Prop where
  starts : ∀ state, states.head? = some state → state = .running
  follows : states.IsChain Follows

/-- The state that the record of a task enters with a step. -/
def enters (t : TaskID) (s : State) (a : Action) : List DistributedTaskState :=
  match step s a with
  | none => []
  | some u =>
    match u.record t with
    | none => []
    | some record =>
      if (s.record t).map (·.state) = some record.state then [] else [record.state]

/-- The states the record of a task goes through in a run. -/
def stateHistory (t : TaskID) (as : List Action) : List DistributedTaskState :=
  Run.observed step (enters t) as .initial

theorem DiagramPath.append {states : List DistributedTaskState} {old next : DistributedTaskState}
    (h : DiagramPath states) (hlast : states.getLast? = some old) (hnext : Follows old next) :
    DiagramPath (states ++ [next]) where
  starts := by
    intro state hs
    apply h.starts state
    cases states with
    | nil => cases hlast
    | cons first rest => exact hs
  follows := by
    apply h.follows.append (List.isChain_singleton next)
    intro x hx y hy
    rw [hlast] at hx
    cases hx
    cases hy
    exact hnext

/-- The call has not put its record into the table yet. -/
def SubmitPhase.unpublished : SubmitPhase → Bool
  | .unused | .refused _ | .reserved _ => true
  | .published _ | .undelivered _ _ | .erased _ _ | .rolledBack _ _ | .accepted _ => false

structure HistoryOk (t : TaskID) (seen : List DistributedTaskState) (s : State) : Prop where
  recorded : Recorded s
  path : DiagramPath seen
  current : ∀ record, s.record t = some record → seen.getLast? = some record.state
  unpublished : (s.phase t).unpublished = true → seen = []

theorem enters_same {a : Action} {t : TaskID} (h : step s a = some u)
    (hr : u.record t = s.record t) : enters t s a = [] := by
  simp only [enters, h, hr]
  cases s.record t with
  | none => rfl
  | some record => simp

theorem enters_gone {a : Action} {t : TaskID} (h : step s a = some u) (hr : u.record t = none) :
    enters t s a = [] := by
  simp [enters, h, hr]

theorem enters_new {a : Action} {t : TaskID} {record : DistributedTaskRecord}
    (h : step s a = some u) (hr : u.record t = some record)
    (hne : ∀ old, s.record t = some old → old.state ≠ record.state) :
    enters t s a = [record.state] := by
  simp only [enters, h, hr]
  cases hs : s.record t with
  | none => simp
  | some old => simp [hne old hs]

/-- The record stays as it is. -/
theorem HistoryOk.same {t : TaskID} {seen : List DistributedTaskState} {a : Action}
    (hh : HistoryOk t seen s) (h : step s a = some u) (hrecord : u.record t = s.record t)
    (hunpublished : (u.phase t).unpublished = true → (s.phase t).unpublished = true) :
    HistoryOk t (seen ++ enters t s a) u := by
  rw [enters_same h hrecord, List.append_nil]
  exact ⟨hh.recorded.step h, hh.path, by rw [hrecord]; exact hh.current,
    fun hu => hh.unpublished (hunpublished hu)⟩

/-- The record goes on to another state of the diagram. -/
theorem HistoryOk.moves {t : TaskID} {seen : List DistributedTaskState} {a : Action}
    {old new : DistributedTaskRecord} (hh : HistoryOk t seen s) (h : step s a = some u)
    (hphase : u.phase t = s.phase t) (hold : s.record t = some old) (hnew : u.record t = some new)
    (hne : old.state ≠ new.state) (hfollows : Follows old.state new.state) :
    HistoryOk t (seen ++ enters t s a) u := by
  have hlast := hh.current old hold
  rw [enters_new h hnew (by rw [hold]; rintro _ ⟨⟩; exact hne)]
  refine ⟨hh.recorded.step h, hh.path.append hlast hfollows, ?_, ?_⟩
  · intro record hr
    rw [hnew] at hr
    cases hr
    simp
  · intro hun
    rw [hphase] at hun
    rw [hh.unpublished hun] at hlast
    cases hlast

theorem historyOk_step {t : TaskID} {seen : List DistributedTaskState} {a : Action}
    (hh : HistoryOk t seen s) (h : step s a = some u) :
    HistoryOk t (seen ++ enters t s a) u := by
  cases step_task h t with
  | other hphase hrecord => exact hh.same h hrecord (by rw [hphase]; exact id)
  | refused _ hphase _ hrecord | reserved _ hphase _ hrecord =>
    exact hh.same h hrecord (fun _ => by rw [hphase]; rfl)
  | published call hfree hphase hphase' hrecord =>
    have hnone : s.record t = none :=
      hh.recorded.none (by simp [hphase]) (by simp [hphase]) (by simp [hphase])
    have hnil : seen = [] := hh.unpublished (by rw [hphase]; rfl)
    rw [if_pos hnone] at hrecord
    rw [enters_new h hrecord (by simp [hnone]), hnil, List.nil_append]
    refine ⟨hh.recorded.step h, ⟨?_, List.isChain_singleton _⟩, ?_, ?_⟩
    · rintro state ⟨⟩
      rfl
    · intro record hr
      rw [hrecord] at hr
      cases hr
      rfl
    · rw [hphase']
      simp [SubmitPhase.unpublished]
  | delivered _ _ _ _ _ hphase' hrecord | undelivered _ _ _ hphase' hrecord
  | rolledBack _ _ _ _ hphase' hrecord =>
    refine hh.same h hrecord (fun hun => ?_)
    rw [hphase'] at hun
    cases hun
  | erased call status ha hphase hphase' hrecord =>
    rw [enters_gone h hrecord, List.append_nil]
    exact ⟨hh.recorded.step h, hh.path, by simp [hrecord],
      by rw [hphase']; simp [SubmitPhase.unpublished]⟩
  | requested old new hphase hold hlive hnew hlive' hsame hgiven hstate =>
    by_cases hagain : old.state = .cancelRequested
    · -- requested before: the state stays
      have hnil : enters t s a = [] := by simp [enters, h, hnew, hold, hagain, hstate]
      rw [hnil, List.append_nil]
      refine ⟨hh.recorded.step h, hh.path, ?_, by rw [hphase]; exact hh.unpublished⟩
      intro record hr
      rw [hnew] at hr
      cases hr
      rw [hh.current old hold, hagain, hstate]
    · have hrunning : old.state = .running := (isTerminal_eq_false.mp hlive).resolve_right hagain
      refine hh.moves h hphase hold hnew (by rwa [hstate]) ?_
      rw [hrunning]
      exact .inl hstate
  | ended old new hphase hold hlive hnew hterm hsame hgiven =>
    have hne : old.state ≠ new.state := by
      intro he
      rw [he, hterm] at hlive
      cases hlive
    refine hh.moves h hphase hold hnew hne ?_
    obtain hrunning | hrequested := isTerminal_eq_false.mp hlive
    · rw [hrunning]
      exact .inr hterm
    · rw [hrequested]
      exact hterm

theorem historyOk_initial (t : TaskID) : HistoryOk t [] .initial where
  recorded := recorded_initial
  path := ⟨by simp, List.isChain_nil⟩
  current := by
    intro record h
    cases h
  unpublished := fun _ => rfl

/-- The safety of the `CancelTask` calls of a run that leads to `v`. -/
structure CancellationSafe (as : List Action) (v : State) : Prop where
  steps : ∀ k before a s u, CancelStep as k before a s u → ∃ t,
    MadeFor (Run.observed step cancelEvents (before ++ [a]) .initial) k t ∧
    CancelStepSafe (Run.observed step cancelEvents before .initial) k t a s u
  failed : ∀ k status, v.cancelPhase k = .returned status → status.ok = false →
    ∀ before a s u, CancelStep as k before a s u → u.plane = s.plane
  histories : ∀ t, DiagramPath (stateHistory t as)

/-- In every run cancellations are safe and every record keeps to the diagram. -/
theorem cancellation_safe {as : List Action} {v : State}
    (hrun : Run.run step as .initial = some v) : CancellationSafe as v := by
  refine ⟨?_, ?_, ?_⟩
  · intro k before a s u hstep
    have hc : Calls (Run.observed step cancelEvents before .initial) s := by
      have := Run.invariant_observed (I := Calls) (fun _ _ _ _ hc _ h => calls_step hc h)
        (Run.along_true before .initial) hstep.reached calls_initial
      simpa using this
    have hevents : Run.observed step cancelEvents (before ++ [a]) .initial =
        Run.observed step cancelEvents before .initial ++ cancelEvents s a := by
      rw [Run.observed_append hstep.reached, Run.observed_cons hstep.taken]
      simp [Run.observed]
    rw [hevents]
    exact (cancelMove hstep.call hstep.taken).safe hc
  · intro k status hreturned hno before a s u hstep
    by_contra hne
    obtain ⟨after, rfl⟩ := hstep.within
    have hok := (cancelMove hstep.call hstep.taken).returns_ok hne
    have hafter : Run.run step after u = some v := by
      rw [Run.run_append, hstep.reached, Option.bind_some, Run.run_cons, hstep.taken] at hrun
      exact hrun
    have hstays := Run.invariant_run (I := fun w => w.cancelPhase k = .returned .OK)
      (fun _ _ _ hs h => returned_step h hs) hafter hok
    rw [hstays] at hreturned
    cases hreturned
    cases hno
  · intro t
    have hh := Run.invariant_observed (I := HistoryOk t) (fun _ _ _ _ hh _ h => historyOk_step hh h)
      (Run.along_true as .initial) hrun (historyOk_initial t)
    simpa [stateHistory] using hh.path

namespace Sample

/-- Two cancellations cross, and the completion overtakes the second one's reply. -/
def cancelledTwice : List Action :=
  [.registerNode (node 1) 0, reserve 1, .submitPublish (task 1), .submitDispatched (task 1) .OK,
    .cancelSnapshot 1 (task 1), .cancelSnapshot 2 (task 1), .cancelLocate 1, .cancelLocate 2,
    .cancelDelivered 1 .OK, .cancelPublish 1, .cancelDelivered 2 .OK, succeed 1, .cancelPublish 2]

end Sample

theorem cancellation_safe_twice :
    CancellationSafe Sample.cancelledTwice (Run.stateAfter step Sample.cancelledTwice .initial) :=
  cancellation_safe (Run.run_stateAfter (by decide))

end ControlSystem

end AgentRuntime
