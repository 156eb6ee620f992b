import AgentRuntime.Library.Quiescence
import AgentRuntime.Local.Sleepers
import AgentRuntime.Local.Underway

/-!
# The local runtime does not get stuck

A runtime that is left alone by its clients, and in which no thread can move, is
at rest: every call has returned, no task waits, and every task is terminal.
-/
namespace AgentRuntime

namespace LocalSystem

/-- A step that a thread takes by itself. No call begins, and nobody wakes up without cause. -/
def Action.isOwn : Action → Bool
  | .call (.submitBegin _ _ _) | .call (.cancelBegin _ _) | .call (.drainBegin _)
  | .lifecycle .startBegin | .lifecycle .shutdownBegin | .wake _ => false
  | _ => true

variable {s u : State} {evs : List Event}

/-! ## No thread is stuck -/

structure Live (s : State) : Prop where
  ready : Ready s
  admitted : Admitted s
  accounted : Accounted s
  asleep : Asleep s
  undrained : Undrained s
  prompted : Prompted s
  watched : Watched s
  underway : Underway s
  owed : Owed s

theorem live_initial (workerIds : List WorkerID) (capacity : ResourceSet) (callback : Bool) :
    Live (.initial workerIds capacity callback) where
  ready := ready_initial workerIds capacity callback
  admitted := admitted_initial workerIds capacity callback
  accounted := accounted_initial workerIds capacity callback
  asleep := asleep_initial workerIds capacity callback
  undrained _ := rfl
  prompted := prompted_initial workerIds capacity callback
  watched := watched_initial workerIds capacity callback
  underway := underway_initial workerIds capacity callback
  owed := owed_initial workerIds capacity callback

theorem step_live {a : Action} (h : step s a = some u) (hpublic : publicApi a = true)
    (hfree : entryFree s a = true) (hl : Live s) : Live u where
  ready := step_ready h hl.ready
  admitted := step_admitted h hl.ready.inv hl.admitted
  accounted := step_accounted h hl.ready.inv hfree hl.accounted
  asleep := step_asleep h hl.ready.inv hl.asleep
  undrained := step_undrained h hl.ready.inv hpublic hl.undrained
  prompted := step_prompted h hl.ready.inv hl.admitted hl.accounted hl.prompted
  watched := step_watched h hl.ready hl.asleep hl.undrained hl.prompted hpublic hl.watched
  underway := step_underway h hl.ready hl.underway
  owed := step_owed h hl.ready hl.owed

/-- No thread can move, unless a client calls or somebody wakes up without cause. -/
def Stuck (s : State) : Prop := Run.Quiescent step (fun a => a.isOwn = true) s

/-- Whoever notifies finds somebody to wake, or nobody asleep. -/
theorem exists_notifyOne (sleeping : List Waiter) :
    ∃ woken sleeping', notifyOne sleeping woken = some sleeping' := by
  cases sleeping with
  | nil => exact ⟨none, [], rfl⟩
  | cons waiter rest => exact ⟨some waiter, rest, by simp [notifyOne]⟩

/-- The owner of `Scheduler::mu_` is never stuck. -/
theorem Stuck.holder (hq : Stuck s) : s.holder = none := by
  cases hholder : s.holder with
  | none => rfl
  | some holder =>
    obtain ⟨woken, sleeping', hwoken⟩ := exists_notifyOne s.sleeping
    cases holder with
    | scheduling phase =>
      cases phase with
      | fetchingSpec => simpa [step, loopStep, hholder] using hq (.loop .trySpec) rfl
      | observing => simpa [step, loopStep, hholder] using hq (.loop .tryObserve) rfl
      | selecting => simpa [step, loopStep, hholder] using hq (.loop .trySelect) rfl
      | reserving => simpa [step, loopStep, hholder] using hq (.loop .tryReserve) rfl
      | acquiring => simpa [step, loopStep, hholder] using hq (.loop .tryAcquire) rfl
      | fetchingHandler => simpa [step, loopStep, hholder] using hq (.loop .tryHandler) rfl
      | fetchingToken => simpa [step, loopStep, hholder] using hq (.loop .tryToken) rfl
      | popping => simpa [step, loopStep, hholder] using hq (.loop .tryPop) rfl
      | marking => simpa [step, loopStep, hholder] using hq (.loop (.tryMark .Nil)) rfl
      | dispatching => simpa [step, loopStep, hholder] using hq (.loop .tryDispatch) rfl
      | undoRelease => simpa [step, loopStep, hholder] using hq (.loop .undoRelease) rfl
      | undoReserve => simpa [step, loopStep, hholder] using hq (.loop .undoReserve) rfl
    | enqueueMark => simpa [step, callStep, hholder] using hq (.call .enqueueMark) rfl
    | enqueuePush =>
      simpa [step, callStep, hholder, hwoken] using hq (.call (.enqueuePush woken)) rfl
    | cancelRemove => simpa [step, callStep, hholder] using hq (.call .cancelRemove) rfl
    | cancelTask => simpa [step, callStep, hholder] using hq (.call .cancelTask) rfl
    | cancelReport k queued completion =>
      cases queued with
      | true =>
        simpa [step, callStep, hholder, hwoken] using hq (.call (.cancelReturn woken)) rfl
      | false => simpa [step, callStep, hholder] using hq (.call (.cancelReturn none)) rfl

/-- A worker thread waits for work, or there is none. -/
theorem Stuck.thread (hq : Stuck s) (w : WorkerID) :
    (s.worker w).thread = .off ∨ (s.worker w).thread = .exited ∨
      (s.worker w).thread = .waiting ∧ (s.worker w).mailbox = none ∧
        (s.worker w).stopping = false := by
  have hfree := hq.holder
  cases ht : (s.worker w).thread with
  | off => exact .inl rfl
  | exited => exact .inr (.inl rfl)
  | waiting =>
    refine .inr (.inr ⟨rfl, ?_⟩)
    have htake := hq (.thread w .take) rfl
    simp only [step, threadStep, Worker.take, ht, Option.map_eq_none_iff] at htake
    cases hm : (s.worker w).mailbox with
    | some work => simp [hm] at htake
    | none => simpa [hm] using htake
  | taken => simpa [step, threadStep, ht] using hq (.thread w .markRunning) rfl
  | marked => simpa [step, threadStep, ht] using hq (.thread w .invoke) rfl
  | executing => simpa [step, threadStep, ht] using hq (.thread w (.leaveHandler (.returned .OK []))) rfl
  | finished => simpa [step, threadStep, ht] using hq (.thread w .complete) rfl
  | reporting => simpa [step, threadStep, ht] using hq (.thread w .reported) rfl
  | returning => simpa [step, threadStep, ht] using hq (.thread w .becomeIdle) rfl
  | notifying => simpa [step, threadStep, ht, hfree] using hq (.thread w .idleErase) rfl
  | releasing => simpa [step, threadStep, ht] using hq (.thread w .idleRelease) rfl
  | waking => simpa [step, threadStep, ht, hfree] using hq (.thread w .idleWake) rfl
  | announcing => simpa [step, threadStep, ht] using hq (.thread w .idleNotify) rfl

theorem idle_of_off {worker : Worker} (h : worker.WellFormed) (ht : worker.thread = .off) :
    worker.state = .idle := by
  refine (h.down ?_).1
  by_contra hup
  exact h.up (by simpa using hup) ht

/-- No worker has anything to do. -/
theorem Stuck.running (hq : Stuck s) (hl : Live s) : s.running = ∅ := by
  refine Finmap.ext_lookup (fun w => ?_)
  rw [Finmap.lookup_empty]
  by_contra hentry
  obtain ⟨seen, hb⟩ := hl.accounted.booked
  have hwf := hl.ready.inv.slots.wellFormed w
  obtain hbusy | hnote | ⟨p, work, hheld, -⟩ := hb.occupied w hentry
  · have hheld := hwf.held hbusy
    obtain ht | ht | ⟨ht, hm, -⟩ := hq.thread w <;> simp only [State.worker] at ht
    · rw [idle_of_off hwf ht] at hbusy
      cases hbusy
    · rw [(hwf.left ht).2, ht] at hheld
      cases hheld
    · simp only [State.worker] at hm
      rw [hm, ht] at hheld
      cases hheld
  · obtain ht | ht | ⟨ht, -⟩ := hq.thread w <;>
      · rw [State.worker, hnote] at ht
        cases ht
  · rw [hq.holder] at hheld
    cases hheld

theorem Stuck.not_coming (hq : Stuck s) (hl : Live s) : ¬ NotifyComing s := by
  rintro (hrun | ⟨w, hw⟩)
  · exact hrun (hq.running hl)
  · obtain ht | ht | ⟨ht, -⟩ := hq.thread w <;>
      · rw [ht] at hw
        cases hw

theorem Stuck.lifecycle (hq : Stuck s) (hl : Live s) : s.lifecycle = none := by
  have hfree := hq.holder
  cases hlife : s.lifecycle with
  | none => rfl
  | some holder =>
    cases holder with
    | registering => simpa [step, callStep, hlife] using hq (.call .submitRegister) rfl
    | enqueuing => simpa [step, callStep, hlife, hfree] using hq (.call .enqueueBegin) rfl
    | inEnqueue =>
      have hinside := hl.ready.submitting.entered hlife
      rw [hfree] at hinside
      cases hinside
    | startingPool => simpa [step, lifecycleStep, hlife] using hq (.lifecycle .startPool) rfl
    | startingScheduler =>
      simpa [step, lifecycleStep, hlife, hfree] using hq (.lifecycle .startScheduler) rfl
    | opening => simpa [step, lifecycleStep, hlife] using hq (.lifecycle .startOpen) rfl

/-- The scheduler thread has left, or it sleeps with an empty queue. -/
theorem Stuck.loop (hq : Stuck s) (hl : Live s) : s.loop.alive = false ∨
    .loop ∈ s.sleeping ∧ (s.control = .notifying ∨ s.stopping = false ∧ s.queue = []) := by
  have hfree := hq.holder
  cases hloop : s.loop with
  | off | exited => exact .inl rfl
  | looping => simpa [step, loopStep, hloop, hfree] using hq (.loop .check) rfl
  | entering => simpa [step, loopStep, hloop, hfree] using hq (.loop .tryBegin) rfl
  | atWait =>
    have hasleep : .loop ∈ s.sleeping := by
      by_contra hawake
      simpa [step, loopStep, hloop, hfree, hawake] using hq (.loop .wait) rfl
    refine .inr ⟨hasleep, ?_⟩
    cases hstop : s.stopping with
    | true => exact .inl (hl.watched.stopping hasleep hstop)
    | false =>
      obtain hn | hc | ⟨hqueue, -⟩ := hl.watched.loop hasleep
      · exact .inl hn
      · exact absurd hc (hq.not_coming hl)
      · exact .inr ⟨rfl, hqueue⟩

/-- `Shutdown` is never stuck. -/
theorem Stuck.control (hq : Stuck s) (hl : Live s) : s.control = .off := by
  have hfree := hq.holder
  cases hc : s.control with
  | off => rfl
  | draining =>
    have := hq (.lifecycle .shutdownDrain) rfl
    simp only [step, lifecycleStep, hc, hfree] at this
    split at this <;> cases this
  | waitingDrain =>
    exfalso
    have hasleep : .shutdown ∈ s.sleeping := by
      by_contra hawake
      simpa [step, lifecycleStep, hc, hfree, hawake] using hq (.lifecycle .shutdownDrained) rfl
    have hon : s.control ≠ .off := by rw [hc]; simp
    obtain ⟨hstarted, hstopping⟩ :=
      hl.underway.up (hl.underway.shutting hon) (by rw [hc]; rfl)
    have hqueue : s.queue = [] := by
      obtain hdead | ⟨-, hn | ⟨-, hempty⟩⟩ := hq.loop hl
      · exact hl.underway.emptied hdead
      · rw [hc] at hn
        cases hn
      · exact hempty
    obtain hne | hcoming | he := hl.watched.shutdown hasleep
    · exact hne hqueue
    · exact hq.not_coming hl hcoming
    · rw [hfree] at he
      cases he
  | stoppingScheduler =>
    simpa [step, lifecycleStep, hc, hfree] using hq (.lifecycle .shutdownStop) rfl
  | notifying =>
    obtain ⟨woken, sleeping', hwoken⟩ := exists_notifyOne s.sleeping
    simpa [step, lifecycleStep, hc, hwoken] using hq (.lifecycle (.shutdownNotify woken)) rfl
  | joiningLoop =>
    exfalso
    have hstopping := hl.underway.stopping (by rw [hc]; rfl)
    obtain hdead | ⟨-, hn | ⟨hno, -⟩⟩ := hq.loop hl
    · have hleft : s.loop = .exited ∨ s.loop = .off := by
        cases hloop : s.loop with
        | off => exact .inr rfl
        | exited => exact .inl rfl
        | atWait | looping | entering =>
          rw [hloop] at hdead
          cases hdead
      simpa [step, lifecycleStep, hc, hleft] using hq (.lifecycle .shutdownJoin) rfl
    · rw [hc] at hn
      cases hn
    · rw [hstopping] at hno
      cases hno
  | loopJoined =>
    simpa [step, lifecycleStep, hc, hfree] using hq (.lifecycle .shutdownStopped) rfl
  | closingPool => simpa [step, lifecycleStep, hc] using hq (.lifecycle .shutdownPool) rfl
  | stoppingWorkers => simpa [step, lifecycleStep, hc] using hq (.lifecycle .shutdownWorker) rfl
  | joiningWorker w rest =>
    exfalso
    obtain ⟨hstarted, hstopping⟩ := hl.underway.joining w rest hc
    obtain ht | ht | ⟨-, -, hno⟩ := hq.thread w
    · exact (hl.ready.inv.slots.wellFormed w).up hstarted ht
    · simpa [step, lifecycleStep, hc, ht] using hq (.lifecycle .shutdownJoinWorker) rfl
    · rw [hstopping] at hno
      cases hno
  | resettingWorker => simpa [step, lifecycleStep, hc] using hq (.lifecycle .shutdownReset) rfl
  | publishing =>
    simpa [step, lifecycleStep, hc, hq.lifecycle hl] using hq (.lifecycle .shutdownPublish) rfl

theorem Stuck.queue (hq : Stuck s) (hl : Live s) : s.queue = [] := by
  obtain hdead | ⟨-, hn | ⟨-, hempty⟩⟩ := hq.loop hl
  · exact hl.underway.emptied hdead
  · rw [hq.control hl] at hn
    cases hn
  · exact hempty

/-- Every task is terminal. -/
theorem Stuck.terminal (hq : Stuck s) (hl : Live s) {t : TaskID} {record : TaskRecord}
    (hr : s.record t = some record) : record.state.isTerminal = true := by
  have hi := hl.ready.inv
  have hfree := hq.holder
  have hnot : record.state ≠ .scheduled ∧ record.state ≠ .running := by
    by_contra hheld
    obtain ⟨w, -, hw⟩ := hi.ownership.holding_of_record hr (by tauto)
    have hitem : (s.pool.workers w).item? = none := by
      obtain ht | ht | ⟨ht, hm, -⟩ := hq.thread w <;> simp only [State.worker] at ht
      · refine (hi.slots.wellFormed w).item?_eq_none (fun hbusy => ?_)
        rw [idle_of_off (hi.slots.wellFormed w) ht] at hbusy
        cases hbusy
      · simp [Worker.item?, ((hi.slots.wellFormed w).left ht).2, ht, Thread.item?]
      · simp only [State.worker] at hm
        simp [Worker.item?, hm, ht, Thread.item?]
    simp [holding, hitem, hfree, Holder.inHand] at hw
  cases hs : record.state with
  | succeeded | failed | cancelled => rfl
  | scheduled => exact absurd hs hnot.1
  | running => exact absurd hs hnot.2
  | queued =>
    obtain hmem | hlimbo := (hi.queueing.queued t).mp ⟨record, hr, hs⟩
    · rw [hq.queue hl] at hmem
      cases hmem
    · rw [hfree] at hlimbo
      cases hlimbo
  | pending =>
    obtain ⟨k, hk⟩ := hl.owed t (by rw [stateOf_of_lookup hr, hs])
    simp [State.submitting?, LocalSystem.submitting?, hq.lifecycle hl] at hk

/-- Outside `Shutdown` no worker thread has left. -/
theorem Stuck.not_exited (hq : Stuck s) (hl : Live s) (w : WorkerID) :
    (s.worker w).thread ≠ .exited := by
  intro ht
  have hi := hl.ready.inv
  have hstopping := ((hi.slots.wellFormed w).left ht).1
  have hup : (s.pool.workers w).started = true := by
    by_contra hdown
    have := ((hi.slots.wellFormed w).down (by simpa using hdown)).2
    simp only [State.worker] at ht
    rw [ht] at this
    cases this
  have hmem := hi.slots.listed w hup
  cases hp : s.pool.started with
  | true =>
    have := (hi.stage.pool_workers hp w hmem).2
    rw [State.worker, hstopping] at this
    cases this
  | false =>
    have hnone : w ∉ s.control.toStop := by
      rw [hq.control hl]
      simp [ControlPhase.toStop]
    have := hi.stage.pool_down hp w hmem hnone
    rw [State.worker, hup] at this
    cases this

/-! ## The result -/

/-- Every call has returned, nothing is queued, and every task and every worker is done. -/
structure AtRest (taken : List Action) (s : State) : Prop where
  submits : ∀ k spec handler, .call (.submitBegin k spec handler) ∈ taken →
    ∃ status, s.submits.lookup k = some status
  cancels : ∀ k t, .call (.cancelBegin k t) ∈ taken → ∃ status, s.cancels.lookup k = some status
  lifecycle : s.lifecycle = none ∧ s.control = .off
  scheduler : s.holder = none ∧ (s.loop.alive = true → .loop ∈ s.sleeping)
  queue : s.queue = []
  tasks : ∀ t record, s.record t = some record → record.state.isTerminal = true
  workers : ∀ w, (s.worker w).state = .idle ∧ (s.worker w).mailbox = none ∧
    ((s.worker w).thread = .waiting ∨ (s.worker w).thread = .off)
  resources : s.running = ∅ ∧ ∀ w, s.resourceManager.available w = s.resourceManager.total w

theorem Stuck.quiet (hq : Stuck s) (hl : Live s) : Quiet s where
  tasks t record hr := by
    have hterm := hq.terminal hl hr
    refine ⟨fun hs => ?_, fun hs => ?_⟩ <;> rw [hs] at hterm <;> cases hterm
  callbacks w := by
    obtain ht | ht | ⟨ht, -⟩ := hq.thread w <;> rw [ht] <;> rfl
  scheduling phase hholder := by
    rw [hq.holder] at hholder
    cases hholder

/-- A `Submit` call that was begun and is not inside has returned. -/
theorem returned_of_followed {taken : List Action} (hf : Followed taken s)
    (hlife : s.lifecycle = none) {k : Nat} {spec : TaskSpec} {handler : TaskHandler}
    (hmem : .call (.submitBegin k spec handler) ∈ taken) :
    ∃ status, s.submits.lookup k = some status := by
  have hfollows := hf k spec handler hmem
  cases hc : course s k with
  | outside => rw [hc] at hfollows; exact hfollows.elim
  | returned status => exact ⟨status, returned_of_course hc⟩
  | checked | registered | marked =>
    have hinside := submitting_of_course hc rfl
    simp [State.submitting?, LocalSystem.submitting?, hlife] at hinside

theorem Stuck.atRest {taken : List Action} (hq : Stuck s) (hl : Live s)
    (hf : Followed taken s) (ha : Answered taken s) : AtRest taken s where
  submits _ _ _ hmem := returned_of_followed hf (hq.lifecycle hl) hmem
  cancels k t hmem := by
    refine (ha k t hmem).resolve_right (fun hk => ?_)
    rw [hq.holder] at hk
    cases hk
  lifecycle := ⟨hq.lifecycle hl, hq.control hl⟩
  scheduler := by
    refine ⟨hq.holder, fun halive => ?_⟩
    obtain hdead | ⟨hasleep, -⟩ := hq.loop hl
    · rw [halive] at hdead
      cases hdead
    · exact hasleep
  queue := hq.queue hl
  tasks _ _ hr := hq.terminal hl hr
  workers w := by
    have hidle := (hq.quiet hl).idle hl.ready.inv w
    have hwf := hl.ready.inv.slots.wellFormed w
    refine ⟨hidle, (hwf.free ?_).1, ?_⟩
    · simp only [State.worker] at hidle
      simp [hidle]
    · obtain ht | ht | ⟨ht, -⟩ := hq.thread w
      · exact .inr ht
      · exact absurd ht (hq.not_exited hl w)
      · exact .inl ht
  resources := by
    obtain ⟨seen, hb⟩ := hl.accounted.booked
    exact ⟨hq.running hl,
      ((hb.resourcesTracked hl.ready.inv hl.admitted).quiet (hq.quiet hl)).1⟩

/-- The conditions on a run: the clients use the interface of `Runtime`, and every dispatch
finds the entry of the previous task of its worker gone. -/
def orderly (s : State) (a : Action) : Bool := publicApi a && entryFree s a

theorem run_live {workerIds : List WorkerID} {capacity : ResourceSet} {callback : Bool}
    {as : List Action} (h : Run.run step as (.initial workerIds capacity callback) = some s)
    (horderly : Run.Along step (fun s a => orderly s a = true) as
      (.initial workerIds capacity callback)) : Live s ∧ Followed as s ∧ Answered as s := by
  have hkept : ∀ (taken : List Action) (s : State) (a : Action) (u : State),
      Live s ∧ Followed taken s ∧ Answered taken s → orderly s a = true → step s a = some u →
      Live u ∧ Followed (taken ++ [a]) u ∧ Answered (taken ++ [a]) u := by
    rintro taken s a u ⟨hl, hf, ha⟩ hok hstep
    simp only [orderly, Bool.and_eq_true] at hok
    exact ⟨step_live hstep hok.1 hok.2 hl, step_followed hstep hl.ready.inv hl.ready.submitting hf,
      step_answered hstep ha⟩
  have hnew : Live (.initial workerIds capacity callback) ∧
      Followed [] (.initial workerIds capacity callback) ∧
      Answered [] (.initial workerIds capacity callback) :=
    ⟨live_initial workerIds capacity callback, followed_nil _, fun _ _ hmem => by cases hmem⟩
  have hrun := Run.invariant_observed hkept horderly h hnew
  rwa [List.nil_append, Run.observed_labels h] at hrun

/-- When no thread of the runtime can take a step, all work has been done. -/
theorem no_deadlock {workerIds : List WorkerID} {capacity : ResourceSet} {callback : Bool}
    {as : List Action} (h : Run.run step as (.initial workerIds capacity callback) = some s)
    (horderly : Run.Along step (fun s a => orderly s a = true) as
      (.initial workerIds capacity callback)) (hstuck : Stuck s) : AtRest as s := by
  obtain ⟨hl, hf, ha⟩ := run_live h horderly
  exact hstuck.atRest hl hf ha

/-- Conversely nothing moves in a runtime in which all threads wait. -/
theorem stuck_of_waiting (hlife : s.lifecycle = none) (hcontrol : s.control = .off)
    (hfree : s.holder = none) (hdrains : Undrained s)
    (hloop : s.loop = .atWait ∧ .loop ∈ s.sleeping)
    (hworkers : ∀ w, (s.worker w).thread = .off ∨ (s.worker w).thread = .waiting ∧
      (s.worker w).mailbox = none ∧ (s.worker w).stopping = false) : Stuck s := by
  intro a ha
  cases a with
  | call a =>
    cases a with
    | submitBegin | cancelBegin | drainBegin => cases ha
    | drainWait k => simp [step, callStep, hfree, hdrains k]
    | submitRegister | enqueueBegin | enqueueMark | enqueuePush | cancelRemove | cancelTask
    | cancelReturn => simp [step, callStep, hlife, hfree]
  | loop a => cases a <;> simp [step, loopStep, hloop, hfree]
  | thread w a =>
    obtain ht | ⟨ht, hm, hs⟩ := hworkers w
    · cases a <;> simp [step, threadStep, Worker.take, ht]
    · cases a <;> simp [step, threadStep, Worker.take, ht, hm, hs]
  | lifecycle a =>
    cases a with
    | startBegin | shutdownBegin => cases ha
    | startPool | startScheduler | startOpen | shutdownDrain | shutdownDrained | shutdownStop
    | shutdownNotify | shutdownJoin | shutdownStopped | shutdownPool | shutdownWorker
    | shutdownJoinWorker | shutdownReset | shutdownPublish =>
      simp [step, lifecycleStep, hlife, hcontrol]
  | wake => cases ha

namespace Sample

/-- The first task is done, and the scheduler thread has found the queue empty twice. -/
def settled : List Action :=
  oneTask ++ [.loop .check, .loop .tryBegin, .loop .wait, .loop .check, .loop .tryBegin,
    .loop .wait]

end Sample

/-- In a run with the one worker all other workers are off. -/
theorem off_of_other {as : List Action} (hr : (Run.run step as Sample.runtime).isSome = true)
    (hids : (Run.stateAfter step as Sample.runtime).pool.workerIds = [Sample.workerId])
    {w : WorkerID} (hw : w ≠ Sample.workerId) :
    ((Run.stateAfter step as Sample.runtime).worker w).thread = .off := by
  have hi : Inv (Run.stateAfter step as Sample.runtime) := inv_run (Run.run_stateAfter hr)
  refine ((hi.slots.wellFormed w).down ?_).2
  by_contra hup
  have hmem := hi.slots.listed w (by simpa using hup)
  rw [hids, List.mem_singleton] at hmem
  exact hw hmem

theorem stuck_settled : Stuck (Run.stateAfter step Sample.settled Sample.runtime) := by
  have hdrains : (Run.stateAfter step Sample.settled Sample.runtime).drains = ∅ := by decide
  refine stuck_of_waiting (by decide) rfl (by decide) (fun k => ?_) (by decide) (fun w => ?_)
  · rw [hdrains]
    exact Finmap.lookup_empty k
  · by_cases hw : w = Sample.workerId
    · subst hw
      exact .inr (by decide)
    · exact .inl (off_of_other (by decide) (by decide) hw)

set_option maxRecDepth 4000 in
theorem no_deadlock_settled :
    AtRest Sample.settled (Run.stateAfter step Sample.settled Sample.runtime) := by
  apply no_deadlock (Run.run_stateAfter ?_) _ stuck_settled
  · decide
  · decide

namespace Sample

/-- A task that needs all of the worker, after the resources of another one were lost. -/
def starved : List Action :=
  overtaken ++ [.loop .check, .loop .tryBegin, .loop .wait, .loop .check, .loop .tryBegin,
    .loop .wait] ++ submit 3 { spec 3 with resources := ⟨capacity⟩ } (some .loop) ++
    [.loop .wait, .loop .check, .loop .tryBegin, .loop .trySpec, .loop .tryObserve,
      .loop .tryObserve, .loop .trySelect, .loop .trySelect, .loop .wait]

end Sample

/-- Without the condition on the entries an accepted task can wait for ever. -/
theorem starved_waits : ∃ s, Run.run step Sample.starved Sample.runtime = some s ∧ Stuck s ∧
    s.queue = [Sample.task 3] ∧ ¬ AtRest Sample.starved s := by
  have hdrains : (Run.stateAfter step Sample.starved Sample.runtime).drains = ∅ := by decide
  have hqueue : (Run.stateAfter step Sample.starved Sample.runtime).queue = [Sample.task 3] := by
    decide
  refine ⟨_, Run.run_stateAfter (by decide), ?_, hqueue, fun hrest => ?_⟩
  · refine stuck_of_waiting (by decide) rfl (by decide) (fun k => ?_) (by decide) (fun w => ?_)
    · rw [hdrains]
      exact Finmap.lookup_empty k
    · by_cases hw : w = Sample.workerId
      · subst hw
        exact .inr (by decide)
      · exact .inl (off_of_other (by decide) (by decide) hw)
  · rw [hrest.queue] at hqueue
    cases hqueue

end LocalSystem

end AgentRuntime
