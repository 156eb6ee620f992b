import AgentRuntime.Local.Acceptance
import AgentRuntime.Local.Cancellation
import AgentRuntime.Local.Locking

/-!
# The mutexes between two sections

Between two sections a thread of the local runtime holds what its place in the
source says: `Submit` its `lifecycle_mu_`, and `mu_` while it is inside
`Enqueue`, `Cancel` and `TryScheduleOne` the `mu_` of the scheduler, and a
worker thread nothing. The sections of other threads do not change it.
-/
namespace AgentRuntime

namespace LocalSystem

/-- The mutexes of a thread between two sections, innermost first. -/
def retained (s : State) : Agent → List Mutex
  | .submit k =>
    match s.submitting? with
    | some (k', _) =>
      if k' = k then
        match s.lifecycle with
        | some .inEnqueue => [.scheduler, .lifecycle]
        | _ => [.lifecycle]
      else []
    | none => []
  | .cancel k => if Holder.cancel? s.holder = some k then [.scheduler] else []
  | .loop =>
    match s.holder with
    | some (.scheduling (.observing _ _ _ _)) => [.workerPool, .scheduler]
    | some (.scheduling _) => [.scheduler]
    | _ => []
  | .control => if LifecycleHolder.isStart s.lifecycle = true then [.lifecycle] else []
  | .getStatus _ | .drain _ | .shutdown _ | .worker _ => []

theorem retained_initial (workerIds : List WorkerID) (capacity : ResourceSet) (callback : Bool)
    (x : Agent) : retained (.initial workerIds capacity callback) x = [] := by
  cases x <;> rfl

variable {s u : State}

theorem retained_submit {k : Nat} {c : Course} (h : s.submitting? = some (k, c)) :
    retained s (.submit k) = match s.lifecycle with
      | some .inEnqueue => [.scheduler, .lifecycle]
      | _ => [.lifecycle] := by
  simp only [retained, h, if_true]

theorem retained_submit_outside {k : Nat} (h : s.lifecycle = none) :
    retained s (.submit k) = [] := by
  simp only [retained, State.submitting?, h, LocalSystem.submitting?]

theorem retained_cancel {k : Nat} (h : Holder.cancel? s.holder = some k) :
    retained s (.cancel k) = [.scheduler] := if_pos h

theorem retained_cancel_free {k : Nat} (h : s.holder = none) : retained s (.cancel k) = [] := by
  rw [retained, h]
  rfl

/-! ## The calls keep their order -/

/-- What a thread holds depends on where the calls are. -/
structure Disciplined (s : State) : Prop where
  submitting : Submitting s
  unanswered : ∀ k, Holder.cancel? s.holder = some k → s.cancels.lookup k = none
  starting : LifecycleHolder.isStart s.lifecycle = true → s.control = .off

theorem disciplined_initial (workerIds : List WorkerID) (capacity : ResourceSet)
    (callback : Bool) : Disciplined (.initial workerIds capacity callback) where
  submitting := submitting_initial workerIds capacity callback
  unanswered _ hk := by cases hk
  starting _ := rfl

/-- A `Cancel` that owns `mu_` has not returned. -/
theorem step_unanswered {a : Action} (h : step s a = some u)
    (hs : ∀ k, Holder.cancel? s.holder = some k → s.cancels.lookup k = none) (k : Nat)
    (hk : Holder.cancel? u.holder = some k) : u.cancels.lookup k = none := by
  by_cases hcaller : caller s a = some (.cancel k)
  · cases a with
    | call a =>
      have h : callStep s a = some u := h
      cases callMove h with
      | notFound status hfree =>
        rw [hfree] at hk
        cases hk
      | beginRemove | beginCancel =>
        cases hk
        simp only [callStep] at h
        split at h
        · assumption
        · cases h
      | remove hholder | cancel _ _ hholder =>
        cases hk
        exact hs k (by rw [hholder]; rfl)
      | refuseRemove | refuseCancel | notify | cancelled => cases hk
      | refuseChecks | passChecks | drainRefused => cases hcaller
      | refuseRegister | register | refuseEnqueue | enterEnqueue | refuseMark | markQueued
      | push =>
        obtain ⟨inside, -, he⟩ := Option.map_eq_some_iff.mp hcaller
        cases he
      | drained ha | drainSleeps ha =>
        obtain rfl | rfl := ha <;> cases hcaller
    | loop | thread | lifecycle | wake => cases hcaller
  · have haside := step_aside h hcaller
    rw [haside.cancels]
    exact hs k (by rw [← haside.holder (.inr hk)]; exact hk)

theorem CallLifecycle.isStart {lifecycle : Option LifecycleHolder} (h : CallLifecycle s lifecycle)
    (hs : LifecycleHolder.isStart s.lifecycle = false) :
    LifecycleHolder.isStart lifecycle = false := by
  cases h with
  | same => exact hs
  | returned | admitted | registered | entered => rfl

/-- Calls do not touch `lifecycle_mu_` while `Start` holds it. -/
theorem isStart_call {a : CallAction} (h : callStep s a = some u) (hs : Submitting s) :
    LifecycleHolder.isStart u.lifecycle = LifecycleHolder.isStart s.lifecycle := by
  have outside : LifecycleHolder.isStart s.lifecycle = false →
      LifecycleHolder.isStart u.lifecycle = LifecycleHolder.isStart s.lifecycle := fun hno => by
    rw [hno, (callFrame h).lifecycle.isStart hno]
  cases a with
  | submitBegin | enqueueBegin =>
    refine outside ?_
    simp only [callStep] at h
    split at h
    · rename_i hlife _
      rw [hlife]
      rfl
    · cases h
  | submitRegister =>
    refine outside ?_
    simp only [callStep] at h
    split at h
    · rename_i hlife
      rw [hlife]
      rfl
    · cases h
  | enqueueMark | enqueuePush =>
    refine outside ?_
    simp only [callStep] at h
    split at h
    · rename_i k t hholder
      rw [hs.inside _ (by rw [hholder]; rfl)]
      rfl
    · cases h
  | cancelBegin | cancelRemove | cancelTask | cancelReturn | drainBegin | drainWait =>
    cases callMove h <;> rfl

/-- `Start` goes on in its own sections only. -/
theorem isStart_kept {a : Action} (h : step s a = some u) (hs : Submitting s)
    (ha : ∀ b, a ≠ .lifecycle b) :
    LifecycleHolder.isStart u.lifecycle = LifecycleHolder.isStart s.lifecycle ∧
      u.control = s.control := by
  cases a with
  | call a => exact ⟨isStart_call h hs, (callFrame h).control⟩
  | loop a => cases loopMove h <;> exact ⟨rfl, rfl⟩
  | thread w a =>
    cases threadMove h
    exact ⟨rfl, rfl⟩
  | lifecycle b => exact absurd rfl (ha b)
  | wake waiter =>
    obtain rfl := step_wake h
    exact ⟨rfl, rfl⟩

/-- `Shutdown` touches no call and neither mutex that is held from one section to the next. -/
theorem shutdown_kept {a : LifecycleAction} (h : lifecycleStep s a = some u)
    (ha : a.isShutdown = true) : u.holder = s.holder ∧ u.lifecycle = s.lifecycle ∧
      u.submits = s.submits ∧ u.cancels = s.cancels := by
  cases lifecycleMove h with
  | startBegin | startPool | startScheduler | keepScheduler | «open» => cases ha
  | ignored | shutdownBegin | drainRefused | drained | drainSleeps | stop | notStarted | notify
  | join | stopped | closePool | poolDown | stopWorker | skipWorker | allStopped | joinWorker
  | resetWorker | publish => exact ⟨rfl, rfl, rfl, rfl⟩

/-- A `Shutdown` and a `Start` of one thread do not overlap. -/
theorem not_starting {a : LifecycleAction} (h : lifecycleStep s a = some u)
    (ha : a.isShutdown = true) (hs : Disciplined s) :
    LifecycleHolder.isStart s.lifecycle = false := by
  have free : s.lifecycle = none → LifecycleHolder.isStart s.lifecycle = false := fun hlife => by
    rw [hlife]
    rfl
  have inside : s.control ≠ .off → LifecycleHolder.isStart s.lifecycle = false := fun hon => by
    cases hstart : LifecycleHolder.isStart s.lifecycle with
    | false => rfl
    | true => exact absurd (hs.starting hstart) hon
  cases a with
  | startBegin | startPool | startScheduler | startOpen => cases ha
  | shutdownBegin | shutdownPublish =>
    simp only [lifecycleStep] at h
    split at h
    · exact free (by assumption)
    · cases h
  | shutdownDrain | shutdownDrained | shutdownStop | shutdownStopped =>
    simp only [lifecycleStep] at h
    split at h
    · rename_i hcontrol _
      exact inside (by simp [hcontrol])
    · cases h
  | shutdownNotify | shutdownJoin | shutdownPool | shutdownWorker | shutdownJoinWorker
  | shutdownReset =>
    simp only [lifecycleStep] at h
    split at h
    · rename_i hcontrol
      exact inside (by simp [hcontrol])
    · cases h

theorem start_control {a : LifecycleAction} (h : lifecycleStep s a = some u)
    (ha : a.isShutdown = false) (hs : Disciplined s) : u.control = .off := by
  cases a with
  | startBegin =>
    simp only [lifecycleStep] at h
    split at h
    · rename_i hoff
      cases h
      simp only [startBegin]
      split
      · exact hoff
      · split
        · exact hoff
        · split <;> exact hoff
    · cases h
  | startPool | startOpen =>
    simp only [lifecycleStep] at h
    split at h
    · rename_i hlife
      cases h
      exact hs.starting (by rw [hlife]; rfl)
    · cases h
  | startScheduler =>
    simp only [lifecycleStep] at h
    split at h
    · rename_i hlife _
      cases h
      have hoff := hs.starting (by rw [hlife]; rfl)
      simp only [startScheduler]
      split <;> exact hoff
    · cases h
  | shutdownBegin | shutdownDrain | shutdownDrained | shutdownStop | shutdownNotify
  | shutdownJoin | shutdownStopped | shutdownPool | shutdownWorker | shutdownJoinWorker
  | shutdownReset | shutdownPublish => cases ha

/-- While `Start` holds `lifecycle_mu_`, its thread is not inside `Shutdown`. -/
theorem step_starting {a : Action} (h : step s a = some u) (hs : Disciplined s)
    (hstart : LifecycleHolder.isStart u.lifecycle = true) : u.control = .off := by
  cases a with
  | lifecycle a =>
    cases hshutdown : a.isShutdown with
    | true =>
      obtain ⟨-, hlife, -, -⟩ := shutdown_kept h hshutdown
      rw [hlife, not_starting h hshutdown hs] at hstart
      cases hstart
    | false => exact start_control h hshutdown hs
  | call | loop | thread | wake =>
    obtain ⟨hlife, hcontrol⟩ := isStart_kept h hs.submitting (by simp)
    rw [hcontrol]
    exact hs.starting (hlife.symm.trans hstart)

theorem step_disciplined {a : Action} (h : step s a = some u) (hs : Disciplined s) :
    Disciplined u where
  submitting := (step_course h hs.submitting).1
  unanswered := step_unanswered h hs.unanswered
  starting := step_starting h hs

/-- Nothing of it depends on how far `Shutdown` is, but for the thread that starts the runtime. -/
theorem Disciplined.congr (hs : Disciplined s) (hholder : u.holder = s.holder)
    (hlife : u.lifecycle = s.lifecycle) (hsubmits : u.submits = s.submits)
    (hcancels : u.cancels = s.cancels) (hcontrol : u.control = s.control) : Disciplined u where
  submitting := (hs.submitting.frame hsubmits (by rw [hholder]) (.inl hlife)).1
  unanswered := by
    rw [hholder, hcancels]
    exact hs.unanswered
  starting := by
    rw [hlife, hcontrol]
    exact hs.starting

theorem moveStep_disciplined {s u : Threads} {a : Move} (h : moveStep s a = some u)
    (hs : Disciplined s.runtime) : Disciplined u.runtime := by
  cases a with
  | step a =>
    obtain ⟨v, hv, rfl⟩ := Option.map_eq_some_iff.mp h
    exact step_disciplined hv hs
  | shutdown k a =>
    simp only [moveStep] at h
    split at h
    · rename_i ha
      obtain ⟨v, hv, rfl⟩ := Option.map_eq_some_iff.mp h
      obtain ⟨hholder, hlife, hsubmits, hcancels⟩ := shutdown_kept hv ha
      exact hs.congr hholder hlife hsubmits hcancels rfl
    · cases h
  | getStatus =>
    cases h
    exact hs

/-! ## The sections of other threads -/

theorem actor_of_caller {a : Action} {call : Call} (h : caller s a = some call) :
    actor s a = some call.agent := by
  cases a with
  | call a =>
    cases a with
    | drainBegin | drainWait => cases h
    | submitBegin | submitRegister | enqueueBegin | enqueueMark | enqueuePush | cancelBegin
    | cancelRemove | cancelTask | cancelReturn => simp only [actor, h, Option.map_some]
  | loop | thread | lifecycle | wake => cases h

theorem retained_submit_other {a : Action} {k : Nat} (h : step s a = some u)
    (hs : Submitting s) (hcaller : caller s a ≠ some (.submit k)) :
    retained u (.submit k) = retained s (.submit k) := by
  have hu := (step_course h hs).1
  have hcourse := course_kept h hs hcaller
  simp only [retained]
  cases hinside : s.submitting? with
  | some inside =>
    obtain ⟨k', c⟩ := inside
    by_cases hk : k' = k
    · subst hk
      have hc := course_of_submitting hs hinside
      have hstill := submitting_of_course (hcourse.trans hc) (isInside_of_submitting hinside)
      rw [hstill, (lifecycle_kept h hinside hcaller).1]
    · simp only [if_neg hk]
      split
      · rename_i k'' c' hinside'
        rw [if_neg]
        rintro rfl
        have hc := submitting_of_course (hcourse.symm.trans (course_of_submitting hu hinside'))
          (isInside_of_submitting hinside')
        rw [hinside] at hc
        cases hc
        exact hk rfl
      · rfl
  | none =>
    simp only
    split
    · rename_i k'' c' hinside'
      rw [if_neg]
      rintro rfl
      have hc := submitting_of_course (hcourse.symm.trans (course_of_submitting hu hinside'))
        (isInside_of_submitting hinside')
      rw [hinside] at hc
      cases hc
    · rfl

theorem retained_cancel_other {a : Action} {k : Nat} (h : step s a = some u)
    (hcaller : caller s a ≠ some (.cancel k)) :
    retained u (.cancel k) = retained s (.cancel k) := by
  have haside := step_aside h hcaller
  simp only [retained]
  by_cases hs : Holder.cancel? s.holder = some k
  · rw [haside.holder (.inl hs)]
  · by_cases hu : Holder.cancel? u.holder = some k
    · rw [haside.holder (.inr hu)]
    · rw [if_neg hs, if_neg hu]

/-- Nobody but the scheduler thread enters `TryScheduleOne` or goes on in it. -/
theorem scheduling_kept {a : Action} (h : step s a = some u) (ha : ∀ b, a ≠ .loop b)
    (phase : TryPhase) :
    u.holder = some (.scheduling phase) ↔ s.holder = some (.scheduling phase) := by
  cases a with
  | call a =>
    refine ⟨(callFrame h).holder phase, fun hholder => ?_⟩
    cases callMove h with
    | refuseChecks | passChecks | refuseRegister | register | refuseEnqueue | notFound
    | drainRefused | drained | drainSleeps => exact hholder
    | enterEnqueue _ hfree | beginRemove hfree | beginCancel hfree =>
      rw [hfree] at hholder
      cases hholder
    | refuseMark _ _ hother | markQueued _ hother | push hother | refuseRemove _ hother
    | remove hother | refuseCancel _ _ hother | cancel _ _ hother | notify hother
    | cancelled hother =>
      rw [hother] at hholder
      cases hholder
  | loop b => exact absurd rfl (ha b)
  | thread w a =>
    cases threadMove h
    rfl
  | lifecycle a => cases lifecycleMove h <;> rfl
  | wake waiter =>
    obtain rfl := step_wake h
    rfl

theorem retained_loop_other {a : Action} (h : step s a = some u) (ha : ∀ b, a ≠ .loop b) :
    retained u .loop = retained s .loop := by
  have hkept := scheduling_kept h ha
  by_cases hs : ∃ phase, s.holder = some (.scheduling phase)
  · obtain ⟨phase, hs⟩ := hs
    simp only [retained, hs, (hkept phase).mpr hs]
  · have hnone : ∀ {v : State}, (¬ ∃ phase, v.holder = some (.scheduling phase)) →
        retained v .loop = [] := by
      intro v hv
      simp only [retained]
      split
      · rename_i hholder
        exact absurd ⟨_, hholder⟩ hv
      · rename_i hholder
        exact absurd ⟨_, hholder⟩ hv
      · rfl
    rw [hnone hs, hnone (fun ⟨phase, hu⟩ => hs ⟨phase, (hkept phase).mp hu⟩)]

theorem retained_other {a : Action} {x : Agent} (h : step s a = some u) (hs : Submitting s)
    (hx : actor s a ≠ some x) : retained u x = retained s x := by
  cases x with
  | submit k => exact retained_submit_other h hs (fun hc => hx (actor_of_caller hc))
  | cancel k => exact retained_cancel_other h (fun hc => hx (actor_of_caller hc))
  | loop => exact retained_loop_other h (fun b hb => hx (by rw [hb]; rfl))
  | control =>
    have hkept := isStart_kept h hs (fun b hb => hx (by rw [hb]; rfl))
    simp only [retained, hkept.1]
  | getStatus | drain | shutdown | worker => rfl

theorem retained_congr (hholder : u.holder = s.holder) (hlife : u.lifecycle = s.lifecycle)
    (x : Agent) : retained u x = retained s x := by
  cases x <;> simp only [retained, State.submitting?, hholder, hlife]

theorem retained_move {s u : Threads} {a : Move} {x : Agent} (h : moveStep s a = some u)
    (hs : Disciplined s.runtime) (hx : agent s a ≠ some x) :
    retained u.runtime x = retained s.runtime x := by
  cases a with
  | step a =>
    obtain ⟨v, hv, rfl⟩ := Option.map_eq_some_iff.mp h
    exact retained_other hv hs.submitting hx
  | shutdown k a =>
    simp only [moveStep] at h
    split at h
    · rename_i ha
      obtain ⟨v, hv, rfl⟩ := Option.map_eq_some_iff.mp h
      obtain ⟨hholder, hlife, -, -⟩ := shutdown_kept hv ha
      exact retained_congr hholder hlife x
    · cases h
  | getStatus =>
    cases h
    rfl

end LocalSystem

end AgentRuntime
