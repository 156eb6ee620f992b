import AgentRuntime.Control.Cancellation

/-!
# What an accepted cancellation stands for

`CancelTask` returns OK and a record is set to `cancelRequested` only after a worker has
accepted the cancellation of the task. What the acceptance of a worker means is left open
here: whatever it establishes, and keeps, for the task of the call.
-/
namespace AgentRuntime

namespace ControlSystem

variable {s u : State} {seen : List CancelEvent} {signalled signalled' : TaskID → Prop}

/-- Each acceptance that the control plane reports, or counts on, has been established. -/
structure Honoured (seen : List CancelEvent) (signalled : TaskID → Prop) (s : State) : Prop where
  calls : Calls seen s
  delivered : ∀ k t record, s.cancelPhase k = .delivered t record → signalled t
  requested : ∀ t record, s.record t = some record → record.state = .cancelRequested → signalled t
  returned : ∀ k status, s.cancelPhase k = .returned status → status.ok = true →
    ∃ t, MadeFor seen k t ∧ signalled t

theorem honoured_initial (signalled : TaskID → Prop) : Honoured [] signalled .initial where
  calls := calls_initial
  delivered k t record h := by cases h
  requested t record h := by
    simp [State.initial, State.record, ControlPlane.empty] at h
  returned k status h := by cases h

theorem Honoured.mono (hh : Honoured seen signalled s)
    (hmono : ∀ t, signalled t → signalled' t) : Honoured seen signalled' s where
  calls := hh.calls
  delivered k t record hphase := hmono t (hh.delivered k t record hphase)
  requested t record hl hstate := hmono t (hh.requested t record hl hstate)
  returned k status hphase hok := by
    obtain ⟨t, hmade, ht⟩ := hh.returned k status hphase hok
    exact ⟨t, hmade, hmono t ht⟩

/-- A record that is inserted in this step has another state, or was there before. -/
theorem record_before_other {t t' : TaskID} {new record : DistributedTaskRecord}
    (hu : u.plane.tasks = s.plane.tasks.insert t' new) (hnew : new.state ≠ .cancelRequested)
    (hl : u.record t = some record) (hstate : record.state = .cancelRequested) :
    s.record t = some record := by
  rw [record_of_insert hu] at hl
  split at hl
  · cases hl
    exact absurd hstate hnew
  · exact hl

theorem not_requested_of_terminal {state : DistributedTaskState} (h : isTerminal state = true) :
    state ≠ .cancelRequested := by
  rintro rfl
  cases h

/-- A record is set to `cancelRequested` by a call that a worker has accepted. -/
theorem step_requested {a : Action} (h : step s a = some u) {t : TaskID}
    {record : DistributedTaskRecord} (hl : u.record t = some record)
    (hstate : record.state = .cancelRequested) :
    s.record t = some record ∨ ∃ k snapshot, s.cancelPhase k = .delivered t snapshot := by
  by_cases hk : ∃ k, cancelCall a = some k
  · obtain ⟨k, hk⟩ := hk
    cases cancelMove hk h with
    | refused | began | lost | located | undelivered | delivered | overtaken => exact .inl hl
    | published t' snapshot current hphase hcurrent =>
      rw [record_of_insert rfl] at hl
      split at hl
      · rename_i ht
        exact .inr ⟨k, snapshot, ht ▸ hphase⟩
      · exact .inl hl
  · left
    cases a with
    | registerNode | heartbeat | updateLiveness | removeNode =>
      cases h
      exact hl
    | submitReserve =>
      obtain ⟨-, ⟨_, rfl⟩ | ⟨_, _, -, -, -, -, rfl⟩⟩ := step_submitReserve h <;> exact hl
    | submitPublish t' =>
      obtain ⟨call, -, -, rfl⟩ := step_submitPublish h
      cases hold : s.record t' with
      | none =>
        have hu : s.plane.tasks.emplace t' (call.record t') =
            s.plane.tasks.insert t' (call.record t') := UnorderedMap.emplace_of_none _ hold
        exact record_before_other hu
          (by simp [SubmitCall.record, ControlPlane.newRecord]) hl hstate
      | some old =>
        have hu : s.plane.tasks.emplace t' (call.record t') = s.plane.tasks :=
          UnorderedMap.emplace_of_some _ hold
        exact (congrArg (·.lookup t) hu).symm.trans hl
    | submitDispatched =>
      obtain ⟨_, -, rfl⟩ := step_submitDispatched h
      exact hl
    | submitErase t' =>
      obtain ⟨call, status, -, -, rfl⟩ := step_submitErase h
      have hrecord : (s.plane.tasks.erase t').lookup t = some record := hl
      rw [UnorderedMap.lookup_erase_eq] at hrecord
      split at hrecord
      · cases hrecord
      · exact hrecord
    | submitRelease =>
      obtain ⟨_, _, -, rfl⟩ := step_submitRelease h
      exact hl
    | cancelSnapshot k _ | cancelLocate k | cancelDelivered k _ | cancelPublish k =>
      exact absurd ⟨k, rfl⟩ hk
    | report =>
      obtain ⟨-, ⟨rfl, -⟩ | ⟨_, -, -, -, hterm, -, rfl⟩⟩ := step_report h
      · exact hl
      · exact record_before_other rfl (not_requested_of_terminal hterm) hl hstate
    | deadBegin =>
      obtain ⟨-, -, rfl⟩ := step_deadBegin h
      exact hl
    | deadNext =>
      obtain ⟨_, -, ⟨-, rfl⟩ | ⟨_, _, -, ⟨-, rfl⟩ | ⟨-, rfl⟩ | ⟨old, -, -, -, rfl⟩⟩⟩ :=
        step_deadNext h
      · exact hl
      · exact hl
      · exact hl
      · exact record_before_other rfl (by simp [ControlPlane.failedByNode]) hl hstate

/-- The calls after a step: the one that takes it moves on. -/
theorem step_cancelPhase {a : Action} (h : step s a = some u) (k : Nat) :
    u.cancelPhase k = s.cancelPhase k ∨ CancelMove s k a u := by
  cases hk : cancelCall a with
  | none =>
    left
    rw [State.cancelPhase, (step_cancels hk h).1]
    rfl
  | some k' =>
    by_cases hkk : k = k'
    · exact .inr (cancelMove (hkk ▸ hk) h)
    · exact .inl ((cancelMove hk h).others hkk)

theorem Honoured.step {a : Action} (hh : Honoured seen signalled s) (h : step s a = some u)
    (hmono : ∀ t, signalled t → signalled' t)
    (hreply : ∀ k status t record node, a = .cancelDelivered k status → status.ok = true →
      s.cancelPhase k = .located t record node → signalled t) :
    Honoured (seen ++ cancelEvents s a) signalled' u := by
  have hcalls := calls_step hh.calls h
  refine ⟨hcalls, fun k t record hphase => ?_, fun t record hl hstate => ?_,
    fun k status hphase hok => ?_⟩
  · obtain hsame | hmove := step_cancelPhase h k
    · exact hmono t (hh.delivered k t record (hsame ▸ hphase))
    · cases hmove with
      | delivered t' record' node status hlocated hok =>
        rw [setCancel_cancelPhase, if_pos rfl] at hphase
        cases hphase
        exact hmono t (hreply k status t record node rfl hok hlocated)
      | refused | began | lost | located | undelivered | overtaken | published =>
        rw [setCancel_cancelPhase, if_pos rfl] at hphase
        cases hphase
  · obtain hold | ⟨k, snapshot, hphase⟩ := step_requested h hl hstate
    · exact hmono t (hh.requested t record hold hstate)
    · exact hmono t (hh.delivered k t snapshot hphase)
  · have hbefore := hh.calls.calls k
    -- the second section of a call that a worker has accepted
    have hpublish : ∀ t record, a = .cancelPublish k → s.cancelPhase k = .delivered t record →
        ∃ t, MadeFor (seen ++ cancelEvents s a) k t ∧ signalled' t := by
      rintro t record rfl hdelivered
      rw [hdelivered] at hbefore
      exact ⟨t, hbefore.1.append (not_called fun _ h => by cases h),
        hmono t (hh.delivered k t record hdelivered)⟩
    obtain hsame | hmove := step_cancelPhase h k
    · obtain ⟨t, hmade, ht⟩ := hh.returned k status (hsame ▸ hphase) hok
      have hcall := hcalls.calls k
      rw [hphase] at hcall
      obtain ⟨t', hmade'⟩ := hcall
      obtain rfl := (hmade' t).mp (List.mem_append_left _ ((hmade t).mpr rfl))
      exact ⟨t, hmade', hmono t ht⟩
    · cases hmove with
      | refused t status' hidle hrequested =>
        rw [setCancel_cancelPhase, if_pos rfl] at hphase
        cases hphase
        rw [hidle] at hbefore
        obtain ⟨record, hl, hstate⟩ := hrequested hok
        exact ⟨t, madeFor_called hbefore, hmono t (hh.requested t record hl hstate)⟩
      | overtaken t record _ hdelivered => exact hpublish t record rfl hdelivered
      | published t record _ hdelivered => exact hpublish t record rfl hdelivered
      | lost _ _ status' _ hno | undelivered _ _ _ status' _ hno =>
        rw [setCancel_cancelPhase, if_pos rfl] at hphase
        cases hphase
        rw [hno] at hok
        cases hok
      | began | located | delivered =>
        rw [setCancel_cancelPhase, if_pos rfl] at hphase
        cases hphase

end ControlSystem

end AgentRuntime
