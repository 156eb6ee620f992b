import AgentRuntime.Local.Moves
import AgentRuntime.Local.Submission

/-!
# Shutdown completes the accepted work

`Shutdown` closes the admission gate while no `Submit` is past it. What it has
seen drained stays drained, the scheduler thread leaves, and each worker thread
empties its mailbox before it leaves. So nothing that was accepted is left over,
even where `Drain` has returned too early.
-/
namespace AgentRuntime

namespace LocalSystem

/-- `Drain` has returned inside `Shutdown`. -/
def ControlPhase.pastDrain : ControlPhase → Bool
  | .off | .draining | .waitingDrain => false
  | .stoppingScheduler | .notifying | .joiningLoop | .loopJoined | .closingPool
  | .stoppingWorkers _ | .joiningWorker _ _ | .resettingWorker _ _ | .publishing => true

/-- `Scheduler::mu_` is free, or held by a `Cancel` that has nothing to remove. -/
def Holder.isPassive : Option Holder → Bool
  | none | some (.cancelTask _ _ false) | some (.cancelReport _ _ _) => true
  | _ => false

/-- Nothing is queued, and nobody is about to change that. -/
structure Emptied (queue : TaskQueue) (holder : Option Holder) : Prop where
  queue : queue = []
  passive : Holder.isPassive holder = true

structure Closing (s : State) : Prop where
  opened : s.accepting = true → s.runtimeStarted = true
  closed : s.control ≠ .off → s.accepting = false ∧ s.lifecycle = none
  emptied : s.control.pastDrain = true → Emptied s.queue s.holder
  stopped : s.control = .publishing → s.pool.started = false

theorem closing_initial (workerIds : List WorkerID) (capacity : ResourceSet) (callback : Bool) :
    Closing (.initial workerIds capacity callback) where
  opened h := by cases h
  closed h := absurd rfl h
  emptied h := by cases h
  stopped h := by cases h

variable {s u : State} {evs : List Event}

/-! ## Every step keeps what Shutdown has reached -/

/-- A step that leaves `Start` and `Shutdown` where they are. -/
theorem Closing.frame (h : Closing s) (hopen : u.runtimeStarted = s.runtimeStarted)
    (haccepting : u.accepting = s.accepting) (hcontrol : u.control = s.control)
    (hpool : u.pool.started = s.pool.started)
    (hlife : s.accepting = false → s.lifecycle = none → u.lifecycle = none)
    (hemptied : s.accepting = false → s.lifecycle = none → Emptied s.queue s.holder →
      Emptied u.queue u.holder) :
    Closing u where
  opened := by
    rw [hopen, haccepting]
    exact h.opened
  closed hc := by
    rw [hcontrol] at hc
    obtain ⟨hno, hnone⟩ := h.closed hc
    exact ⟨haccepting.trans hno, hlife hno hnone⟩
  emptied hc := by
    rw [hcontrol] at hc
    have hon : s.control ≠ .off := by
      intro hoff
      rw [hoff] at hc
      cases hc
    obtain ⟨hno, hnone⟩ := h.closed hon
    exact hemptied hno hnone (h.emptied hc)
  stopped hc := by
    rw [hcontrol] at hc
    rw [hpool]
    exact h.stopped hc

/-- The gate lets nobody in once it is closed. -/
theorem submitChecks_closed (hno : s.accepting = false) (spec : TaskSpec) (handler : TaskHandler) :
    submitChecks s spec handler = .Unavailable "runtime is not accepting tasks" := by
  simp [submitChecks, hno]

theorem Emptied.not_queued {tm : TaskManager} {queue : TaskQueue} {holder : Option Holder}
    (h : Emptied queue holder) (hq : Queueing tm queue holder) (t : TaskID) : ¬ IsQueued tm t := by
  rw [hq.queued t, h.queue]
  rintro (hmem | hlimbo)
  · cases hmem
  · have hpassive := h.passive
    cases holder with
    | none => cases hlimbo
    | some holder =>
      cases holder with
      | cancelTask k t queued =>
        cases queued with
        | true => cases hpassive
        | false => cases hlimbo
      | cancelReport => cases hlimbo
      | scheduling | enqueueMark | enqueuePush | cancelRemove => cases hpassive

theorem callEffect_emptied {submitting : TaskSpec → TaskHandler → Prop} {tm tm' : TaskManager}
    {queue queue' : TaskQueue} {holder holder' : Option Holder}
    (h : CallEffect submitting tm queue holder tm' queue' holder')
    (hq : Queueing tm queue holder) (henter : ∀ k t, holder' ≠ some (.enqueueMark k t))
    (he : Emptied queue holder) : Emptied queue' holder' := by
  have hpassive := he.passive
  cases h with
  | same | register => exact he
  | beginEnqueue k t => exact absurd rfl (henter k t)
  | beginRemove hrecord hqueued => exact absurd ⟨_, hrecord, hqueued⟩ (he.not_queued hq _)
  | markQueued | push | remove => cases hpassive
  | beginCancel | cancelQueued | cancelRunning | refuseEnqueue | refuseCancel | «return» =>
    exact ⟨he.queue, rfl⟩

/-- The calls of clients leave the gate as it is, and nobody gets past a closed one. -/
structure GateKept (s u : State) : Prop where
  runtimeStarted : u.runtimeStarted = s.runtimeStarted
  accepting : u.accepting = s.accepting
  lifecycle : s.accepting = false → s.lifecycle = none → u.lifecycle = none

theorem CallMove.gateKept {a : CallAction} (h : CallMove s a u) : GateKept s u := by
  cases h with
  | refuseChecks | refuseRegister | refuseEnqueue | refuseMark | push =>
    exact ⟨rfl, rfl, fun _ _ => rfl⟩
  | passChecks _ hchecks =>
    refine ⟨rfl, rfl, fun hno _ => ?_⟩
    rw [submitChecks_closed hno] at hchecks
    cases hchecks
  | register _ hlife | enterEnqueue hlife =>
    refine ⟨rfl, rfl, fun _ hnone => ?_⟩
    rw [hnone] at hlife
    cases hlife
  | markQueued | notFound | beginRemove | beginCancel | remove | refuseRemove | cancel
  | refuseCancel | notify | cancelled | drainRefused | drained | drainSleeps =>
    exact ⟨rfl, rfl, fun _ h => h⟩

theorem callStep_closing {a : CallAction} (h : callStep s a = some u) (hi : Inv s)
    (hs : Submitting s) (hc : Closing s) : Closing u := by
  have hgate := (callMove h).gateKept
  have hframe := callFrame h
  refine hc.frame hgate.runtimeStarted hgate.accepting hframe.control (by rw [hframe.pool])
    hgate.lifecycle (fun hno hlife he => ?_)
  refine callEffect_emptied (callEffect h hi.unfailing) hi.queueing (fun k t hholder => ?_) he
  have hinside := (callStep_course h hs).1.inside (k, .registered t) (by rw [hholder]; rfl)
  rw [hgate.lifecycle hno hlife] at hinside
  cases hinside

theorem loopEffect_closing (h : LoopEffect s evs u) (hc : Closing s) : Closing u := by
  have hpool : u.pool.started = s.pool.started := by cases h <;> rfl
  refine hc.frame ?_ ?_ ?_ hpool ?_ ?_
  · cases h <;> rfl
  · cases h <;> rfl
  · cases h <;> rfl
  · intro _ hlife
    rw [← hlife]
    cases h <;> rfl
  · intro _ _ he
    have hpassive := he.passive
    cases h with
    | rest => exact he
    | peek _ _ hqueue => simp [he.queue] at hqueue
    | spec hholder | observe _ hholder | choose hholder | skip hholder | select hholder
    | giveUp hholder | reserve hholder | acquire hholder | handler hholder | token hholder
    | pop hholder | mark _ hholder | dispatch hholder =>
      rw [hholder] at hpassive
      cases hpassive

theorem threadEffect_closing {w : WorkerID} (h : ThreadEffect s w evs u) (hc : Closing s) :
    Closing u := by
  cases h <;> exact hc.frame rfl rfl rfl rfl (fun _ h => h) (fun _ _ h => h)

/-- `Shutdown` goes on to a phase that promises no more than the one before. -/
theorem Closing.advance (hc : Closing s) (hon : s.control ≠ .off) (hopen : u.accepting = s.accepting)
    (hlife : u.lifecycle = s.lifecycle) (hstarted : u.runtimeStarted = s.runtimeStarted)
    (hemptied : u.control.pastDrain = true → Emptied u.queue u.holder)
    (hstopped : u.control = .publishing → u.pool.started = false) : Closing u where
  opened := by
    rw [hopen, hstarted]
    exact hc.opened
  closed _ := by
    rw [hopen, hlife]
    exact hc.closed hon
  emptied := hemptied
  stopped := hstopped

theorem lifecycleMove_closing {a : LifecycleAction} (h : LifecycleMove s a u) (hst : Stage s)
    (hc : Closing s) :
    Closing u := by
  -- while `Start` is in progress `Shutdown` is not
  have starts : ∀ {u : State}, u.control = s.control → s.control = .off →
      (u.accepting = true → u.runtimeStarted = true) → Closing u := by
    intro u hsame hoff hopened
    rw [hoff] at hsame
    refine ⟨hopened, fun hon => absurd hsame hon, fun hp => ?_, fun hp => ?_⟩ <;>
    · rw [hsame] at hp
      cases hp
  have past : s.control.pastDrain = true → Emptied s.queue s.holder := hc.emptied
  have closed : s.control.poolClosed = true → s.pool.started = false := hst.pool_closed
  cases h with
  | ignored => exact hc
  | startBegin _ _ hlife hoff => exact starts rfl hoff hc.opened
  | startPool hlife => exact starts rfl (hst.control_off hlife rfl) hc.opened
  | startScheduler hlife => exact starts rfl (hst.control_off hlife rfl) hc.opened
  | keepScheduler hlife => exact starts rfl (hst.control_off hlife rfl) hc.opened
  | «open» hlife => exact starts rfl (hst.control_off hlife rfl) (fun _ => rfl)
  | shutdownBegin hlife hoff =>
    exact ⟨(fun h => by cases h), fun _ => ⟨rfl, hlife⟩, (fun h => by cases h),
      (fun h => by cases h)⟩
  | drainRefused =>
    exact ⟨hc.opened, fun h => absurd rfl h, (fun h => by cases h), (fun h => by cases h)⟩
  | drained hcontrol hfree hdrained =>
    refine hc.advance ?_ rfl rfl rfl (fun _ => ⟨?_, ?_⟩) (fun h => by cases h)
    · obtain h | ⟨h, -⟩ := hcontrol <;> simp [h]
    · simp only [State.drained, Bool.and_eq_true, List.isEmpty_iff] at hdrained
      exact hdrained.1
    · show Holder.isPassive s.holder = true
      rw [hfree]
      rfl
  | drainSleeps hcontrol =>
    refine hc.advance ?_ rfl rfl rfl (fun h => by cases h) (fun h => by cases h)
    obtain h | ⟨h, -⟩ := hcontrol <;> simp [h]
  | stop hcontrol | notStarted hcontrol | notify hcontrol | join hcontrol | stopped hcontrol
  | closePool hcontrol | stopWorker hcontrol | skipWorker hcontrol | joinWorker hcontrol
  | resetWorker hcontrol =>
    exact hc.advance (by simp [hcontrol]) rfl rfl rfl (fun _ => past (by rw [hcontrol]; rfl))
      (fun h => by cases h)
  | poolDown hcontrol hdown =>
    exact hc.advance (by simp [hcontrol]) rfl rfl rfl (fun _ => past (by rw [hcontrol]; rfl))
      (fun _ => hdown)
  | allStopped hcontrol =>
    exact hc.advance (by simp [hcontrol]) rfl rfl rfl (fun _ => past (by rw [hcontrol]; rfl))
      (fun _ => closed (by rw [hcontrol]; rfl))
  | publish =>
    exact ⟨(fun h => by cases h), fun h => absurd rfl h, (fun h => by cases h),
      (fun h => by cases h)⟩

theorem step_closing {a : Action} (h : step s a = some u) (hi : Inv s) (hs : Submitting s)
    (hc : Closing s) : Closing u := by
  cases a with
  | call a => exact callStep_closing h hi hs hc
  | loop a => exact loopEffect_closing (loopEffect h hi.unfailing) hc
  | thread w a => exact threadEffect_closing (threadEffect h hi.unfailing) hc
  | lifecycle a => exact lifecycleMove_closing (lifecycleMove h) hi.stage hc
  | wake waiter =>
    obtain rfl := step_wake h
    exact hc.frame rfl rfl rfl rfl (fun _ h => h) (fun _ _ h => h)

/-! ## The calls that have been begun -/

/-- How far a call can be that was begun for a task. -/
def Follows (tm : TaskManager) (t : TaskID) : Course → Prop
  | .outside => False
  | .checked spec => spec.id = t
  | .registered t' | .marked t' => t' = t
  | .returned status => status.ok = true → Begun tm t

/-- Every `Submit` call of the run is followed. -/
def Followed (taken : List Action) (s : State) : Prop := ∀ k spec handler,
  .call (.submitBegin k spec handler) ∈ taken → Follows s.taskManager spec.id (course s k)

theorem followed_nil (s : State) : Followed [] s := fun _ _ _ hmem => by cases hmem

theorem course_outside {k : Nat} {spec : TaskSpec} {handler : TaskHandler}
    (h : callStep s (.submitBegin k spec handler) = some u) : course s k = .outside := by
  simp only [callStep] at h
  split at h
  · rename_i hlife hnew
    simp only [course, hnew, State.submitting?, LocalSystem.submitting?, hlife]
  · cases h

theorem Follows.step {a : Action} {t : TaskID} {k : Nat} {c c' : Course}
    (hstep : CourseStep s a u k c c') (hmarked : ∀ t', c = .marked t' → Begun s.taskManager t')
    (hkeep : ∀ {t'}, Begun s.taskManager t' → Begun u.taskManager t')
    (h : Follows s.taskManager t c) : Follows u.taskManager t c' := by
  cases hstep with
  | stay =>
    cases c with
    | returned status => exact fun hok => hkeep (h hok)
    | outside | checked | registered | marked => exact h
  | begin | refuseBegin => exact h.elim
  | register | mark => exact h
  | push t' =>
    obtain rfl : t' = t := h
    exact fun _ => hkeep (hmarked t' rfl)
  | refuse _ hno =>
    intro hok
    rw [hno] at hok
    cases hok

theorem step_followed {taken : List Action} {a : Action} (h : step s a = some u) (hi : Inv s)
    (hs : Submitting s) (hf : Followed taken s) : Followed (taken ++ [a]) u := by
  intro k spec handler hmem
  have hcourse := (step_course h hs).2 k
  obtain hmem | hmem := List.mem_append.mp hmem
  · refine Follows.step hcourse (fun t' hc => ?_) (step_begun h hi) (hf k spec handler hmem)
    exact ⟨.queued, queued_of_marked hi hc, by simp⟩
  · obtain rfl := List.mem_singleton.mp hmem
    have hinside := course_submitBegin h
    rw [course_outside h] at hcourse
    generalize course u k = c at hcourse hinside
    cases hcourse with
    | stay => exact absurd rfl hinside
    | «begin» ha =>
      cases ha
      rfl
    | refuseBegin _ hno =>
      intro hok
      rw [hno] at hok
      cases hok
    | refuse _ _ _ hc => cases hc

/-! ## The result -/

/-- Every worker is down once they have all been joined. -/
theorem Closing.worker_down (hc : Closing s) (hi : Inv s) (hpub : s.control = .publishing)
    (w : WorkerID) : (s.pool.workers w).started = false := by
  cases hup : (s.pool.workers w).started with
  | false => rfl
  | true =>
    have hdown := hi.stage.pool_down (hc.stopped hpub) w (hi.slots.listed w hup)
      (by simp [hpub, ControlPhase.toStop])
    rw [State.worker, hup] at hdown
    cases hdown

/-- What has been begun is over. -/
theorem Closing.terminal (hc : Closing s) (hi : Inv s) (hpub : s.control = .publishing)
    {t : TaskID} (ht : Begun s.taskManager t) :
    ∃ record, s.record t = some record ∧ record.state.isTerminal = true := by
  have hemptied := hc.emptied (by rw [hpub]; rfl)
  obtain ⟨x, hx, hne⟩ := ht
  obtain ⟨record, hl, rfl⟩ := Option.map_eq_some_iff.mp hx
  have hqueued : record.state ≠ .queued :=
    fun hs => hemptied.not_queued hi.queueing t ⟨record, hl, hs⟩
  have hwith : ¬ (record.state = .scheduled ∨ record.state = .running) := by
    intro hs
    obtain ⟨w, -, hw⟩ := hi.ownership.holding_of_record hl hs
    obtain ⟨hidle, -⟩ := (hi.slots.wellFormed w).down (hc.worker_down hi hpub w)
    have hnone := (hi.slots.wellFormed w).item?_eq_none (by simp [hidle])
    have hhand : Holder.inHand s.holder w = none := by
      have hpassive := hemptied.passive
      simp only [Holder.inHand]
      split
      · rename_i hholder
        rw [hholder] at hpassive
        cases hpassive
      · rfl
    simp [holding, hnone, hhand] at hw
  refine ⟨record, hl, ?_⟩
  cases hs : record.state with
  | succeeded | failed | cancelled => rfl
  | pending => exact absurd hs hne
  | queued => exact absurd hs hqueued
  | scheduled => exact absurd (.inl hs) hwith
  | running => exact absurd (.inr hs) hwith

theorem LoopEffect.accepting (h : LoopEffect s evs u) : u.accepting = s.accepting := by
  cases h <;> rfl

theorem ThreadEffect.accepting {w : WorkerID} (h : ThreadEffect s w evs u) :
    u.accepting = s.accepting := by
  cases h <;> rfl

/-- Nothing but the last section of `Start` opens the gate. -/
theorem step_accepting {a : Action} (h : step s a = some u) (hi : Inv s)
    (hopen : a ≠ .lifecycle .startOpen) (hno : s.accepting = false) : u.accepting = false := by
  cases a with
  | call a => exact (callMove h).gateKept.accepting.trans hno
  | loop a => exact (loopEffect h hi.unfailing).accepting.trans hno
  | thread w a => exact (threadEffect h hi.unfailing).accepting.trans hno
  | lifecycle a =>
    have hmove := lifecycleMove h
    cases hmove with
    | «open» => exact absurd rfl hopen
    | shutdownBegin | publish => rfl
    | ignored | startBegin | startPool | startScheduler | keepScheduler | drainRefused | drained
    | drainSleeps | stop | notStarted | notify | join | stopped | closePool | poolDown
    | stopWorker | skipWorker | allStopped | joinWorker | resetWorker => exact hno
  | wake waiter =>
    obtain rfl := step_wake h
    exact hno

theorem run_closing {workerIds : List WorkerID} {capacity : ResourceSet} {callback : Bool}
    {as : List Action} (h : Run.run step as (.initial workerIds capacity callback) = some s) :
    Inv s ∧ Closing s ∧ Followed as s := by
  have hstep : ∀ (taken : List Action) (s : State) (a : Action) (u : State),
      (Inv s ∧ Submitting s ∧ Closing s ∧ Followed taken s) → True → step s a = some u →
        Inv u ∧ Submitting u ∧ Closing u ∧ Followed (taken ++ [a]) u :=
    fun taken s a u hs _ hstep => ⟨step_inv hstep hs.1, (step_course hstep hs.2.1).1,
      step_closing hstep hs.1 hs.2.1 hs.2.2.1, step_followed hstep hs.1 hs.2.1 hs.2.2.2⟩
  have hrun := Run.invariant_observed
    (I := fun taken s => Inv s ∧ Submitting s ∧ Closing s ∧ Followed taken s) hstep
    (Run.along_true as _) h ⟨inv_initial workerIds capacity callback,
      submitting_initial workerIds capacity callback, closing_initial workerIds capacity callback,
      followed_nil _⟩
  rw [Run.observed_labels h, List.nil_append] at hrun
  exact ⟨hrun.1, hrun.2.2.1, hrun.2.2.2⟩

/-- The gate is closed from `Shutdown` to the end of the next `Start`. -/
theorem run_accepting {workerIds : List WorkerID} {capacity : ResourceSet} {callback : Bool}
    {before after : List Action}
    (h : Run.run step (before ++ .lifecycle .shutdownBegin :: after)
      (.initial workerIds capacity callback) = some s)
    (hopen : .lifecycle .startOpen ∉ after) : s.accepting = false := by
  obtain ⟨v, hv, hrest⟩ := Run.run_split h
  obtain ⟨u, hu, hafter⟩ := Run.run_cons_some hrest
  obtain ⟨hi, hclosing, -⟩ := run_closing hv
  have hno : u.accepting = false := by
    have hstep : lifecycleStep v .shutdownBegin = some u := hu
    simp only [lifecycleStep] at hstep
    split at hstep
    · split at hstep
      · cases hstep
        rfl
      · rename_i hdown
        cases hstep
        cases ha : v.accepting with
        | false => rfl
        | true => exact absurd (hclosing.opened ha) hdown
    · cases hstep
  have hnone : Run.Along step (fun _ a => a ≠ .lifecycle .startOpen) after u :=
    Run.along_iff.mpr fun pre a post t he _ hopened =>
      hopen (by rw [he, hopened]; exact List.mem_append_right _ List.mem_cons_self)
  have hrun := Run.invariant (I := fun s => Inv s ∧ s.accepting = false)
    (fun s a u hs hopened hstep => ⟨step_inv hstep hs.1, step_accepting hstep hs.1 hopened hs.2⟩)
    hnone hafter ⟨step_inv hu hi, hno⟩
  exact hrun.2

/-- When `Shutdown` is about to return every accepted task is terminal and no mailbox holds one, and
what is submitted after it began is refused until `Start` is called. -/
theorem shutdown_completes {workerIds : List WorkerID} {capacity : ResourceSet} {callback : Bool}
    {as : List Action} (h : Run.run step as (.initial workerIds capacity callback) = some s) :
    (∀ u, step s (.lifecycle .shutdownPublish) = some u →
      (∀ k spec handler status, .call (.submitBegin k spec handler) ∈ as →
        u.submits.lookup k = some status → status.ok = true →
          ∃ record, u.record spec.id = some record ∧ record.state.isTerminal = true) ∧
      ∀ w, (u.worker w).mailbox = none) ∧
    ∀ before after k spec handler u, as = before ++ .lifecycle .shutdownBegin :: after →
      .lifecycle .startOpen ∉ after →
      step s (.call (.submitBegin k spec handler)) = some u →
        u.submits.lookup k = some (.Unavailable "runtime is not accepting tasks") ∧
        u.taskManager = s.taskManager := by
  obtain ⟨hi, hclosing, hfollowed⟩ := run_closing h
  constructor
  · intro u hstep
    have hpublish : lifecycleStep s .shutdownPublish = some u := hstep
    simp only [lifecycleStep] at hpublish
    split at hpublish
    · rename_i hpub _
      cases hpublish
      constructor
      · intro k spec handler status hmem hreturned hok
        have hreturned' : s.submits.lookup k = some status := hreturned
        have hf := hfollowed k spec handler hmem
        rw [course_of_returned hreturned'] at hf
        exact hclosing.terminal hi hpub (hf hok)
      · intro w
        obtain ⟨hidle, -⟩ := (hi.slots.wellFormed w).down (hclosing.worker_down hi hpub w)
        exact ((hi.slots.wellFormed w).free (by simp [hidle])).1
    · cases hpublish
  · intro before after k spec handler u he hopen hstep
    have hno := run_accepting (he ▸ h) hopen
    have hsubmit : callStep s (.submitBegin k spec handler) = some u := hstep
    simp only [callStep] at hsubmit
    split at hsubmit
    · cases hsubmit
      have hchecks := submitChecks_closed hno spec handler
      simp only [submitBegin, hchecks, Status.ok_Unavailable, Bool.false_eq_true, if_false]
      exact ⟨Finmap.lookup_insert _, rfl⟩
    · cases hsubmit

namespace Sample

/-- One task, and `Shutdown` up to its last section. -/
def shutDown : List Action :=
  start ++ submit 1 (spec 1) none ++ [.loop .wait] ++ schedule (.ofByte 1) ++ execute ++
    callback ++ [.lifecycle .shutdownBegin, .lifecycle .shutdownDrain, .lifecycle .shutdownStop,
    .lifecycle (.shutdownNotify none), .loop .check, .lifecycle .shutdownJoin,
    .lifecycle .shutdownStopped, .lifecycle .shutdownPool, .lifecycle .shutdownWorker,
    .thread workerId .take, .lifecycle .shutdownJoinWorker, .lifecycle .shutdownReset,
    .lifecycle .shutdownWorker]

end Sample

theorem shutdown_completes_one : ∃ u record,
    step (Run.stateAfter step Sample.shutDown Sample.runtime) (.lifecycle .shutdownPublish) =
      some u ∧
    u.record (Sample.task 1) = some record ∧ record.state.isTerminal = true := by
  have hrun : Run.run step Sample.shutDown Sample.runtime =
      some (Run.stateAfter step Sample.shutDown Sample.runtime) := Run.run_stateAfter (by decide)
  obtain ⟨u, hstep, hreturned⟩ : ∃ u,
      step (Run.stateAfter step Sample.shutDown Sample.runtime) (.lifecycle .shutdownPublish) =
        some u ∧ u.submits.lookup 1 = some .OK := ⟨_, rfl, by decide⟩
  have hcall : .call (.submitBegin 1 (Sample.spec 1) Sample.handler) ∈ Sample.shutDown := by
    simp [Sample.shutDown, Sample.submit]
  obtain ⟨record, hl, hterm⟩ := ((shutdown_completes hrun).1 u hstep).1 1 (Sample.spec 1)
    Sample.handler .OK hcall hreturned rfl
  exact ⟨u, record, hstep, hl, hterm⟩

end LocalSystem

end AgentRuntime
