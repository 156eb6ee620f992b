import AgentRuntime.Local.Acceptance
import AgentRuntime.Local.Sections

/-!
# What is under way

`Shutdown` has stopped what it waits for, a pending task is on its way into the
queue, and a `Cancel` that has not returned holds the mutex of the scheduler.
-/
namespace AgentRuntime

namespace LocalSystem

variable {s u : State} {evs : List Event}

/-! ## Start and Shutdown go on -/

/-- `Scheduler::Shutdown` has not closed the scheduler yet. -/
def ControlPhase.beforeStop : ControlPhase → Bool
  | .off | .draining | .waitingDrain | .stoppingScheduler => true
  | _ => false

/-- `Scheduler::Shutdown` waits for the scheduler thread, or is about to. -/
def ControlPhase.isJoining : ControlPhase → Bool
  | .notifying | .joiningLoop => true
  | _ => false

/-- What `Shutdown` waits for is on its way. -/
structure Underway (s : State) : Prop where
  up : s.runtimeStarted = true → s.control.beforeStop = true →
    s.started = true ∧ s.stopping = false
  shutting : s.control ≠ .off → s.runtimeStarted = true
  alive : s.started = true → s.stopping = false → s.loop.alive = true
  stopping : s.control.isJoining = true → s.stopping = true
  joining : ∀ w rest, s.control = .joiningWorker w rest →
    (s.worker w).started = true ∧ (s.worker w).stopping = true
  emptied : s.loop.alive = false → s.queue = []

theorem underway_initial (workerIds : List WorkerID) (capacity : ResourceSet)
    (callback : Bool) : Underway (.initial workerIds capacity callback) where
  up h := by cases h
  shutting h := absurd rfl h
  alive h := by cases h
  stopping h := by cases h
  joining _ _ h := by cases h
  emptied _ := rfl

/-- `Start` and `Shutdown` stay where they are. -/
theorem Underway.frame (h : Underway s) (hruntime : u.runtimeStarted = s.runtimeStarted)
    (hcontrol : u.control = s.control) (hstarted : u.started = s.started)
    (hstopping : u.stopping = s.stopping)
    (hworkers : ∀ w, (u.worker w).started = (s.worker w).started ∧
      (u.worker w).stopping = (s.worker w).stopping)
    (halive : s.stopping = false → s.loop.alive = true → u.loop.alive = true)
    (hemptied : u.loop.alive = false → u.queue = []) : Underway u where
  up hr hc := by
    rw [hruntime] at hr
    rw [hcontrol] at hc
    rw [hstarted, hstopping]
    exact h.up hr hc
  shutting hc := by
    rw [hcontrol] at hc
    rw [hruntime]
    exact h.shutting hc
  alive hu hs := by
    rw [hstarted] at hu
    rw [hstopping] at hs
    exact halive hs (h.alive hu hs)
  stopping hc := by
    rw [hcontrol] at hc
    rw [hstopping]
    exact h.stopping hc
  joining w rest hc := by
    rw [hcontrol] at hc
    rw [(hworkers w).1, (hworkers w).2]
    exact h.joining w rest hc
  emptied := hemptied

theorem callStep_underway {a : CallAction} (h : callStep s a = some u) (hr : Ready s)
    (hu : Underway s) : Underway u := by
  have hf := callFrame h
  have hg := (callMove h).gateKept
  have frame : u.stopping = s.stopping → (s.loop.alive = false → s.queue = [] → u.queue = []) →
      Underway u := by
    intro hstopping hqueue
    refine hu.frame hg.runtimeStarted hf.control hf.started hstopping (fun w => ?_)
      (fun _ ha => hf.loop ▸ ha) (fun ha => ?_)
    · rw [State.worker, hf.pool]
      exact ⟨rfl, rfl⟩
    · rw [hf.loop] at ha
      exact hqueue ha (hu.emptied ha)
  cases callMove h with
  | @push k t woken sleeping hholder hwoken =>
    -- the scheduler is up, since a `Submit` is inside
    have hlife := hr.submitting.inside (k, .marked t) (by rw [hholder]; rfl)
    obtain ⟨hstarted, hstopping⟩ := hr.gate.up (.inr (.inl (by rw [hlife]; rfl)))
    refine frame rfl (fun hdead => ?_)
    rw [hu.alive hstarted hstopping] at hdead
    cases hdead
  | remove _ hmem =>
    refine frame rfl (fun _ hq => ?_)
    rw [hq] at hmem
    cases hmem
  | refuseChecks | passChecks | refuseRegister | register | refuseEnqueue | enterEnqueue
  | refuseMark | markQueued | notFound | beginRemove | beginCancel | refuseRemove | cancel
  | refuseCancel | notify | cancelled | drainRefused | drained | drainSleeps =>
    exact frame rfl (fun _ hq => hq)

/-- The scheduler thread leaves only when `Shutdown` has closed the scheduler, and by then the
queue is empty. -/
theorem loopStep_underway {a : LoopAction} (h : loopStep s a = some u) (hr : Ready s)
    (hu : Underway s) : Underway u := by
  have he := loopEffect h hr.inv.unfailing
  have hsame : u.runtimeStarted = s.runtimeStarted ∧ u.control = s.control ∧
      u.started = s.started ∧ u.stopping = s.stopping ∧ (∀ w, (u.worker w).started =
        (s.worker w).started ∧ (u.worker w).stopping = (s.worker w).stopping) ∧
      s.loop.alive = true ∧ (s.queue = [] → u.queue = []) := by
    have alive : ∀ {phase}, s.holder = some (.scheduling phase) → s.loop.alive = true := by
      intro phase hholder
      rw [hr.inv.stage.scheduling phase hholder]
      rfl
    have workers : ∀ {w : WorkerID} {worker : Worker}, worker.started = (s.worker w).started →
        worker.stopping = (s.worker w).stopping → ∀ w',
        ((s.setWorker w worker).worker w').started = (s.worker w').started ∧
          ((s.setWorker w worker).worker w').stopping = (s.worker w').stopping := by
      intro w worker hstarted hstopping w'
      rw [State.worker_setWorker]
      split
      · rename_i heq
        rw [heq]
        exact ⟨hstarted, hstopping⟩
      · exact ⟨rfl, rfl⟩
    generalize loopEvents s a = evs at he
    cases he with
    | rest _ _ _ _ hloop => exact ⟨rfl, rfl, rfl, rfl, fun _ => ⟨rfl, rfl⟩, hloop, id⟩
    | peek _ hloop => exact ⟨rfl, rfl, rfl, rfl, fun _ => ⟨rfl, rfl⟩, by rw [hloop]; rfl, id⟩
    | spec hholder | observe _ hholder | choose hholder | skip hholder | select hholder
    | giveUp hholder | acquire hholder | handler hholder | token hholder | mark _ hholder =>
      exact ⟨rfl, rfl, rfl, rfl, fun _ => ⟨rfl, rfl⟩, alive hholder, id⟩
    | reserve hholder | dispatch hholder =>
      exact ⟨rfl, rfl, rfl, rfl, workers rfl rfl, alive hholder, id⟩
    | pop hholder hqueue =>
      refine ⟨rfl, rfl, rfl, rfl, fun _ => ⟨rfl, rfl⟩, alive hholder, fun hq => ?_⟩
      rw [hq] at hqueue
      cases hqueue
  obtain ⟨hruntime, hcontrol, hstarted, hstopping, hworkers, halive, hqueue⟩ := hsame
  have hleaves : u.loop.alive = false → s.stopping = true := by
    intro hdead
    cases a with
    | wait =>
      simp only [loopStep] at h
      split at h
      · split at h
        · cases h
        · cases h
          simp only [loopWait] at hdead
          split at hdead
          · assumption
          · split at hdead
            · cases hdead
            · rw [halive] at hdead
              cases hdead
      · cases h
    | check =>
      simp only [loopStep] at h
      split at h
      · cases h
        simp only at hdead
        split at hdead
        · assumption
        · cases hdead
      · cases h
    | tryBegin =>
      simp only [loopStep] at h
      split at h
      · rename_i hloop _
        cases h
        simp only [tryBegin] at hdead
        split at hdead
        · cases hdead
        · split at hdead
          · cases hdead
          · simp only [State.setTry, hloop] at hdead
            cases hdead
      · cases h
    | trySpec | tryObserve | trySelect | tryReserve | tryAcquire | tryHandler | tryToken | tryPop
    | tryMark | tryDispatch | undoRelease | undoReserve =>
      exfalso
      have hheld : s.holder ≠ none := by
        intro hfree
        simp [loopStep, hfree] at h
      generalize loopEvents s _ = evs at he
      cases he with
      | rest _ _ _ hfree | peek hfree => exact hheld hfree
      | dispatch | giveUp => cases hdead
      | spec hholder | observe _ hholder | choose hholder | skip hholder | select hholder
      | reserve hholder | acquire hholder | handler hholder | token hholder | pop hholder
      | mark _ hholder =>
        have hloop := hr.inv.stage.scheduling _ hholder
        simp only [State.setTry, State.setWorker, hloop] at hdead
        cases hdead
  refine hu.frame hruntime hcontrol hstarted hstopping hworkers (fun hno _ => ?_) (fun hdead => ?_)
  · cases ha : u.loop.alive with
    | true => rfl
    | false =>
      rw [hleaves ha] at hno
      cases hno
  · have hclosed := hr.gate.stopping (hr.inv.stage.loop_started halive) (hleaves hdead)
    refine hqueue (hr.closing.emptied ?_).queue
    cases hc : s.control with
    | notifying | joiningLoop | loopJoined => rfl
    | off | draining | waitingDrain | stoppingScheduler | closingPool | stoppingWorkers
    | joiningWorker | resettingWorker | publishing =>
      rw [hc] at hclosed
      cases hclosed

theorem threadStep_underway {w : WorkerID} {a : ThreadAction} (h : threadStep s w a = some u)
    (hi : Inv s) (hu : Underway s) : Underway u := by
  have he := threadEffect h hi.unfailing
  have workers : ∀ {worker : Worker}, worker.started = (s.worker w).started →
      worker.stopping = (s.worker w).stopping → ∀ w',
      ((s.setWorker w worker).worker w').started = (s.worker w').started ∧
        ((s.setWorker w worker).worker w').stopping = (s.worker w').stopping := by
    intro worker hstarted hstopping w'
    rw [State.worker_setWorker]
    split
    · rename_i heq
      rw [heq]
      exact ⟨hstarted, hstopping⟩
    · exact ⟨rfl, rfl⟩
  generalize threadEvents s w a = evs at he
  cases he with
  | take | leave | markRunning | invoke | leaveHandler | complete | reported | becomeIdle
  | erase | eraseNone | release | wake | announce =>
    exact hu.frame rfl rfl rfl rfl (workers rfl rfl) (fun _ ha => ha) hu.emptied

/-- `Shutdown` moves on from a phase in which it does not touch the scheduler. -/
theorem Underway.advance (h : Underway s) (hruntime : u.runtimeStarted = s.runtimeStarted)
    (hon : s.control ≠ .off) (hstarted : u.started = s.started)
    (hstopping : u.stopping = s.stopping) (hloop : u.loop = s.loop) (hqueue : u.queue = s.queue)
    (hbefore : u.control.beforeStop = true → s.control.beforeStop = true)
    (hjoining : u.control.isJoining = true → s.control.isJoining = true)
    (hworker : ∀ w rest, u.control = .joiningWorker w rest →
      (u.worker w).started = true ∧ (u.worker w).stopping = true) : Underway u where
  up hr hc := by
    rw [hruntime] at hr
    rw [hstarted, hstopping]
    exact h.up hr (hbefore hc)
  shutting _ := hruntime.trans (h.shutting hon)
  alive hu hs := by
    rw [hstarted] at hu
    rw [hstopping] at hs
    rw [hloop]
    exact h.alive hu hs
  stopping hc := by
    rw [hstopping]
    exact h.stopping (hjoining hc)
  joining := hworker
  emptied hdead := by
    rw [hloop] at hdead
    rw [hqueue]
    exact h.emptied hdead

theorem lifecycleStep_underway {a : LifecycleAction} (h : lifecycleStep s a = some u)
    (hr : Ready s) (hu : Underway s) : Underway u := by
  have hoff : ∀ {l}, s.lifecycle = some l → LifecycleHolder.isStart (some l) = true →
      s.control = .off := fun hl hs => hr.inv.stage.control_off hl hs
  cases lifecycleMove h with
  | ignored => exact hu
  | startBegin => exact ⟨hu.up, hu.shutting, hu.alive, hu.stopping, hu.joining, hu.emptied⟩
  | startPool hlife =>
    refine ⟨hu.up, hu.shutting, hu.alive, hu.stopping, fun w rest hc => ?_, hu.emptied⟩
    rw [hoff hlife rfl] at hc
    cases hc
  | startScheduler hlife =>
    refine ⟨fun _ _ => ⟨rfl, rfl⟩, hu.shutting, fun _ _ => rfl, fun hc => ?_, hu.joining,
      fun hdead => ?_⟩
    · rw [hoff hlife rfl] at hc
      cases hc
    · cases hdead
  | keepScheduler => exact ⟨hu.up, hu.shutting, hu.alive, hu.stopping, hu.joining, hu.emptied⟩
  | «open» hlife =>
    have hup := hr.gate.up (.inr (.inr hlife))
    exact ⟨fun _ _ => hup, fun _ => rfl, hu.alive, hu.stopping, hu.joining, hu.emptied⟩
  | shutdownBegin _ hoff hup =>
    refine ⟨fun _ _ => hu.up hup (by rw [hoff]; rfl), fun _ => hup, hu.alive, fun hc => ?_,
      fun w rest hc => ?_, hu.emptied⟩ <;> cases hc
  | drainRefused hcontrol hdown =>
    -- not taken: a runtime that is started has started its scheduler
    have hup := hu.up (hu.shutting (by rw [hcontrol]; simp)) (by rw [hcontrol]; rfl)
    rw [hup.1] at hdown
    cases hdown
  | drained hcontrol | drainSleeps hcontrol =>
    refine hu.advance rfl ?_ rfl rfl rfl rfl (fun _ => ?_) (fun hc => ?_) (fun w rest hc => ?_)
    · obtain hc | ⟨hc, -⟩ := hcontrol <;> rw [hc] <;> simp
    · obtain hc | ⟨hc, -⟩ := hcontrol <;> rw [hc] <;> rfl
    · cases hc
    · cases hc
  | stop hcontrol =>
    refine ⟨fun _ hc => ?_, fun _ => hu.shutting (by rw [hcontrol]; simp), fun _ hs => ?_,
      fun _ => rfl, fun w rest hc => ?_, hu.emptied⟩
    · cases hc
    · cases hs
    · cases hc
  | notify hcontrol =>
    refine hu.advance rfl (by rw [hcontrol]; simp) rfl rfl rfl rfl (fun hc => ?_)
      (fun _ => by rw [hcontrol]; rfl) (fun w rest hc => ?_) <;> cases hc
  | join hcontrol hloop =>
    have hstopping := hu.stopping (by rw [hcontrol]; rfl)
    refine ⟨fun _ hc => ?_, fun _ => hu.shutting (by rw [hcontrol]; simp), fun _ hs => ?_,
      fun hc => ?_, fun w rest hc => ?_, fun _ => hu.emptied ?_⟩
    · cases hc
    · simp only [hstopping] at hs
      cases hs
    · cases hc
    · cases hc
    · obtain hl | hl := hloop <;> rw [hl] <;> rfl
  | stopped hcontrol =>
    refine ⟨fun _ hc => ?_, fun _ => hu.shutting (by rw [hcontrol]; simp), fun hs => ?_,
      fun hc => ?_, fun w rest hc => ?_, hu.emptied⟩
    · cases hc
    · cases hs
    · cases hc
    · cases hc
  | @stopWorker w rest hcontrol =>
    refine hu.advance rfl (by rw [hcontrol]; simp) rfl rfl rfl rfl (fun hc => ?_) (fun hc => ?_)
      (fun w' rest' hc => ?_)
    · cases hc
    · cases hc
    · cases hc
      simp only [lifecycleStep, hcontrol, shutdownWorker] at h
      split at h
      · rename_i hstarted
        simp [State.worker, State.setWorker, Worker.requestStop] at hstarted ⊢
        exact hstarted
      · simp at h
  | publish hcontrol =>
    refine ⟨fun hr => ?_, fun hc => absurd rfl hc, hu.alive, fun hc => ?_, fun w rest hc => ?_,
      hu.emptied⟩
    · cases hr
    · cases hc
    · cases hc
  | notStarted hcontrol | closePool hcontrol | poolDown hcontrol | skipWorker hcontrol
  | allStopped hcontrol | joinWorker hcontrol | resetWorker hcontrol =>
    refine hu.advance rfl (by rw [hcontrol]; simp) rfl rfl rfl rfl (fun hc => ?_) (fun hc => ?_)
      (fun w' rest' hc => ?_) <;> cases hc

theorem step_underway {a : Action} (h : step s a = some u) (hr : Ready s) (hu : Underway s) :
    Underway u := by
  cases a with
  | call a => exact callStep_underway h hr hu
  | loop a => exact loopStep_underway h hr hu
  | thread w a => exact threadStep_underway h hr.inv hu
  | lifecycle a => exact lifecycleStep_underway h hr hu
  | wake waiter =>
    obtain rfl := step_wake h
    exact ⟨hu.up, hu.shutting, hu.alive, hu.stopping, hu.joining, hu.emptied⟩

/-! ## A registered task has its call -/

/-- A pending task is on its way into the queue. -/
def Owed (s : State) : Prop := ∀ t, stateOf s.taskManager t = some .pending →
  ∃ k, s.submitting? = some (k, .registered t)

theorem owed_initial (workerIds : List WorkerID) (capacity : ResourceSet) (callback : Bool) :
    Owed (.initial workerIds capacity callback) := by
  intro t ht
  simp [stateOf, State.initial] at ht

/-- No task becomes pending, and the call that is inside goes on. -/
theorem Owed.frame (h : Owed s)
    (htm : ∀ t, stateOf u.taskManager t = some .pending → stateOf s.taskManager t = some .pending)
    (hinside : u.submitting? = s.submitting?) : Owed u := by
  intro t ht
  rw [hinside]
  exact h t (htm t ht)

/-- A call is inside, and none of the tasks waits for it. -/
theorem Owed.not_pending (h : Owed s) (hno : ∀ k t, s.submitting? ≠ some (k, .registered t))
    (t : TaskID) : stateOf s.taskManager t ≠ some .pending := by
  intro ht
  obtain ⟨k, hk⟩ := h t ht
  exact hno k t hk

theorem submitting?_congr (hlife : u.lifecycle = s.lifecycle)
    (hholder : Holder.enqueue? u.holder = Holder.enqueue? s.holder) :
    u.submitting? = s.submitting? := by
  simp only [State.submitting?, hlife, LocalSystem.submitting?]
  split
  · rfl
  · rfl
  · exact hholder
  · rfl

theorem callStep_owed {a : CallAction} (h : callStep s a = some u) (hr : Ready s)
    (ho : Owed s) : Owed u := by
  cases a with
  | submitBegin k spec handler =>
    simp only [callStep] at h
    split at h
    · rename_i hfree hnew
      cases h
      have hno := ho.not_pending (fun k t => by
        simp [State.submitting?, LocalSystem.submitting?, hfree])
      intro t ht
      simp only [submitBegin] at ht
      split at ht <;> exact absurd ht (hno t)
    · cases h
  | submitRegister =>
    simp only [callStep] at h
    split at h
    · rename_i k spec handler hlife
      cases h
      have hno := ho.not_pending (fun k t => by
        simp [State.submitting?, LocalSystem.submitting?, hlife])
      obtain ⟨status, hbad, heq⟩ | ⟨-, -, heq⟩ := s.taskManager.register_cases spec handler
      · intro t ht
        simp only [submitRegister, heq, hbad, Bool.false_eq_true, if_false] at ht
        exact absurd ht (hno t)
      · intro t ht
        simp only [submitRegister, heq, Status.ok_OK, if_true, stateOf_store] at ht ⊢
        split at ht
        · rename_i hid
          exact ⟨k, by simp [State.submitting?, LocalSystem.submitting?, hid]⟩
        · exact absurd ht (hno t)
    · cases h
  | enqueueBegin =>
    simp only [callStep] at h
    split at h
    · rename_i k t hlife hfree
      cases h
      rw [enqueueBegin_enters hr.gate hlife]
      refine ho.frame (fun _ ht => ht) ?_
      simp [State.submitting?, LocalSystem.submitting?, Holder.enqueue?, hlife]
    · cases h
  | enqueueMark =>
    simp only [callStep] at h
    split at h
    · rename_i k t hholder
      cases h
      obtain ⟨record, -, -, heq⟩ := enqueueMark_marks hr.submitting hr.awaited hholder
      have hin : s.submitting? = some (k, .registered t) :=
        hr.submitting.inEnqueue (by rw [hholder]; rfl)
      intro t' ht
      simp only [heq, stateOf_store] at ht
      split at ht
      · cases ht
      · rename_i hne
        obtain ⟨k', hk'⟩ := ho t' ht
        rw [hin] at hk'
        cases hk'
        exact absurd rfl hne
    · cases h
  | enqueuePush woken =>
    simp only [callStep] at h
    split at h
    · rename_i k t hholder
      obtain ⟨sleeping, -, rfl⟩ := Option.map_eq_some_iff.mp h
      have hin : s.submitting? = some (k, .marked t) :=
        hr.submitting.inEnqueue (by rw [hholder]; rfl)
      have hno := ho.not_pending (fun k t => by rw [hin]; simp)
      exact fun t' ht => absurd ht (hno t')
    · cases h
  | cancelTask =>
    simp only [callStep] at h
    split at h
    · rename_i k t queued hholder
      cases h
      -- neither a cancelled nor a running task is pending
      have hpending : ∀ t', stateOf (s.taskManager.cancel t).2.2 t' = some .pending →
          stateOf s.taskManager t' = some .pending := by
        intro t' ht
        obtain ⟨status, -, heq, -⟩ | ⟨record, -, -, heq⟩ | ⟨record, hl, hrunning, heq⟩ :=
          s.taskManager.cancel_cases t
        · rwa [heq] at ht
        · rw [heq, stateOf_store] at ht
          split at ht
          · cases ht
          · exact ht
        · rw [heq, stateOf_store] at ht
          split at ht
          · simp [hrunning] at ht
          · exact ht
      simp only [cancelTask]
      split
      · exact ho.frame hpending (submitting?_congr rfl (by rw [hholder]; rfl))
      · exact ho.frame hpending (submitting?_congr rfl (by rw [hholder]; rfl))
    · cases h
  | cancelBegin =>
    cases callMove h with
    | beginRemove hfree | beginCancel hfree =>
      exact ho.frame (fun _ ht => ht) (submitting?_congr rfl (by rw [hfree]; rfl))
    | notFound | drained | drainSleeps => exact ho.frame (fun _ ht => ht) rfl
  | cancelRemove =>
    cases callMove h with
    | refuseRemove _ hholder | remove hholder =>
      exact ho.frame (fun _ ht => ht) (submitting?_congr rfl (by rw [hholder]; rfl))
    | drained | drainSleeps => exact ho.frame (fun _ ht => ht) rfl
  | cancelReturn =>
    cases callMove h with
    | notify hholder | cancelled hholder =>
      exact ho.frame (fun _ ht => ht) (submitting?_congr rfl (by rw [hholder]; rfl))
    | drained | drainSleeps => exact ho.frame (fun _ ht => ht) rfl
  | drainBegin | drainWait => cases callMove h <;> exact ho.frame (fun _ ht => ht) rfl

/-- Only the registration makes a pending task. -/
theorem TaskStep.of_pending {holder : Option Holder} {t : TaskID} {x : Option ExecutionState}
    (h : TaskStep (fun _ _ => False) holder t x (some .pending)) : x = some .pending := by
  cases h with
  | stay => rfl
  | register hsubmit => exact hsubmit.elim
  | advance _ hy => exact absurd rfl hy

theorem step_owed {a : Action} (h : step s a = some u) (hr : Ready s) (ho : Owed s) : Owed u := by
  by_cases hcall : ∃ b, a = .call b
  · obtain ⟨b, rfl⟩ := hcall
    exact callStep_owed h hr ho
  · have hkept := step_callsKept h (fun b hb => hcall ⟨b, hb⟩)
    have hinside : u.submitting? = s.submitting? := by
      obtain hlife | ⟨hs, hu⟩ := hkept.lifecycle
      · exact submitting?_congr hlife hkept.enqueue?
      · have hnone : ∀ {s : State}, LifecycleHolder.inSubmit s.lifecycle = false →
            s.submitting? = none := by
          intro s hno
          simp only [State.submitting?, LocalSystem.submitting?]
          split <;> simp_all [LifecycleHolder.inSubmit]
        rw [hnone hs, hnone hu]
    refine ho.frame (fun t ht => ?_) hinside
    cases a with
    | call b => exact absurd ⟨b, rfl⟩ hcall
    | loop a =>
      have hstep : TaskStep (fun _ _ => False) s.holder t _ _ :=
        loopEffect_taskStep (loopEffect h hr.inv.unfailing) t
      rw [ht] at hstep
      exact hstep.of_pending
    | thread w a =>
      have hstep : TaskStep (fun _ _ => False) s.holder t _ _ :=
        threadEffect_taskStep (threadEffect h hr.inv.unfailing) t
      rw [ht] at hstep
      exact hstep.of_pending
    | lifecycle a => rwa [(lifecycleEffect h hr.inv.stage).taskManager] at ht
    | wake waiter =>
      obtain rfl := step_wake h
      exact ht

/-! ## A cancelling call has its mutex -/

/-- Every `Cancel` call of the run has returned or holds `Scheduler::mu_`. -/
def Answered (taken : List Action) (s : State) : Prop := ∀ k t,
  .call (.cancelBegin k t) ∈ taken →
    (∃ status, s.cancels.lookup k = some status) ∨ Holder.cancel? s.holder = some k

theorem answered_insert {cancels : UnorderedMap Nat Status} {k k' : Nat} {status : Status}
    (h : k' = k ∨ ∃ status, cancels.lookup k' = some status) :
    ∃ status', (cancels.insert k status).lookup k' = some status' := by
  rw [UnorderedMap.lookup_insert_eq]
  split
  · exact ⟨status, rfl⟩
  · rename_i hne
    exact h.resolve_left hne

theorem step_answered {taken : List Action} {a : Action} (h : step s a = some u)
    (ha : Answered taken s) : Answered (taken ++ [a]) u := by
  intro k t hmem
  rw [List.mem_append, List.mem_singleton] at hmem
  by_cases hcall : ∃ b, a = .call b
  · obtain ⟨b, rfl⟩ := hcall
    have hm := callMove h
    have hs : .call (.cancelBegin k t) = Action.call b ∨
        (∃ status, s.cancels.lookup k = some status) ∨ Holder.cancel? s.holder = some k :=
      hmem.symm.imp_right (ha k t)
    cases hm with
    | notFound status hfree | beginRemove hfree | beginCancel hfree =>
      rw [hfree] at hs
      obtain hk | hk | hk := hs
      · cases hk
        first | exact .inr rfl | exact .inl (answered_insert (.inl rfl))
      · first | exact .inl hk | exact .inl (answered_insert (.inr hk))
      · cases hk
    | refuseRemove _ hholder | refuseCancel _ _ hholder | notify hholder | cancelled hholder =>
      rw [hholder] at hs
      obtain hk | hk | hk := hs
      · cases hk
      · exact .inl (answered_insert (.inr hk))
      · cases hk
        exact .inl (answered_insert (.inl rfl))
    | remove hholder | cancel _ _ hholder =>
      rw [hholder] at hs
      obtain hk | hk | hk := hs
      · cases hk
      · exact .inl hk
      · exact .inr hk
    | enterEnqueue _ hholder | refuseMark _ _ hholder | markQueued _ hholder | push hholder =>
      rw [hholder] at hs
      obtain hk | hk | hk := hs
      · cases hk
      · exact .inl hk
      · cases hk
    | refuseChecks | passChecks | refuseRegister | register | refuseEnqueue | drainRefused =>
      obtain hk | hk := hs
      · cases hk
      · exact hk
    | drained hd | drainSleeps hd =>
      obtain hk | hk := hs
      · cases hk
        obtain hd | hd := hd <;> cases hd
      · exact hk
  · have hkept := step_callsKept h (fun b hb => hcall ⟨b, hb⟩)
    obtain hk | hk := ha k t (hmem.resolve_right (fun hb => hcall ⟨_, hb.symm⟩))
    · rw [hkept.cancels]
      exact .inl hk
    · obtain hholder | ⟨hs, -⟩ := hkept.holder
      · rw [hholder]
        exact .inr hk
      · simp only [Holder.cancel?] at hk
        split at hk <;> simp_all [Holder.isCall]

end LocalSystem

end AgentRuntime
