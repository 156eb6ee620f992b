import AgentRuntime.Local.LocalSystem

/-!
# The moves of the threads

Every section of a client's call, of `Start` and of `Shutdown`, with the phase
it is taken from, the checks it passes and the fields it writes; of the
scheduler thread and the workers only what they can touch.
-/
namespace AgentRuntime

namespace LocalSystem

/-! ## Submit, Cancel and Drain -/

inductive CallMove (s : State) : CallAction → State → Prop where
  | refuseChecks (k spec handler) :
      CallMove s (.submitBegin k spec handler) (s.submitReturns k (submitChecks s spec handler))
  | passChecks {k spec handler} (hlife : s.lifecycle = none)
      (hchecks : (submitChecks s spec handler).ok = true) :
      CallMove s (.submitBegin k spec handler)
        { s with lifecycle := some (.registering k spec handler) }
  | refuseRegister (k status) : CallMove s .submitRegister (s.submitReturns k status)
  | register {k spec handler} (tm) (hlife : s.lifecycle = some (.registering k spec handler)) :
      CallMove s .submitRegister
        { s with taskManager := tm, lifecycle := some (.enqueuing k spec.id) }
  | refuseEnqueue (k status) : CallMove s .enqueueBegin (s.submitReturns k status)
  | enterEnqueue {k t} (hlife : s.lifecycle = some (.enqueuing k t)) (hfree : s.holder = none) :
      CallMove s .enqueueBegin
        { s with holder := some (.enqueueMark k t), lifecycle := some .inEnqueue }
  | refuseMark {k t} (tm status) (hholder : s.holder = some (.enqueueMark k t)) :
      CallMove s .enqueueMark ({ s with taskManager := tm, holder := none }.submitReturns k status)
  | markQueued {k t} (tm) (hholder : s.holder = some (.enqueueMark k t)) :
      CallMove s .enqueueMark { s with taskManager := tm, holder := some (.enqueuePush k t) }
  | push {k t woken sleeping} (hholder : s.holder = some (.enqueuePush k t))
      (hwoken : notifyOne s.sleeping woken = some sleeping) :
      CallMove s (.enqueuePush woken) (enqueuePush s k t sleeping)
  | notFound {k t} (status) (hfree : s.holder = none) :
      CallMove s (.cancelBegin k t) { s with cancels := s.cancels.insert k status }
  | beginRemove {k t} (hfree : s.holder = none) :
      CallMove s (.cancelBegin k t) { s with holder := some (.cancelRemove k t) }
  | beginCancel {k t} (hfree : s.holder = none) :
      CallMove s (.cancelBegin k t) { s with holder := some (.cancelTask k t false) }
  | refuseRemove {k t} (status) (hholder : s.holder = some (.cancelRemove k t))
      (hnot : t ∉ s.queue) : CallMove s .cancelRemove (s.cancelReturns k status)
  | remove {k t} (hholder : s.holder = some (.cancelRemove k t)) (hmem : t ∈ s.queue) :
      CallMove s .cancelRemove
        { s with queue := s.queue.erase t, holder := some (.cancelTask k t true) }
  | refuseCancel {k t queued} (tm status) (hholder : s.holder = some (.cancelTask k t queued))
      (hno : (s.taskManager.cancel t).1.ok = false) :
      CallMove s .cancelTask ({ s with taskManager := tm }.cancelReturns k status)
  | cancel {k t queued} (tm completion) (hholder : s.holder = some (.cancelTask k t queued))
      (hok : (s.taskManager.cancel t).1.ok = true) :
      CallMove s .cancelTask { s with
        taskManager := tm, holder := some (.cancelReport k queued completion) }
  | notify {k completion woken sleeping}
      (hholder : s.holder = some (.cancelReport k true completion))
      (hwoken : notifyOne s.sleeping woken = some sleeping) :
      CallMove s (.cancelReturn woken)
        ({ s with wakeRequested := true, sleeping := sleeping }.cancelReturns k .OK)
  | cancelled {k completion woken} (hholder : s.holder = some (.cancelReport k false completion)) :
      CallMove s (.cancelReturn woken) (s.cancelReturns k .OK)
  | drainRefused {k} (status) (hno : status.ok = false) (hnew : s.drains.lookup k = none) :
      CallMove s (.drainBegin k) { s with drains := s.drains.insert k (some status) }
  | drained {a k} (ha : a = .drainBegin k ∨ a = .drainWait k) (hfree : s.holder = none)
      (hdrained : s.drained = true)
      (hawake : s.drains.lookup k = none ∨ .drain k ∉ s.sleeping) :
      CallMove s a { s with drains := s.drains.insert k (some .OK) }
  | drainSleeps {a k} (ha : a = .drainBegin k ∨ a = .drainWait k) (hfree : s.holder = none)
      (hdrained : s.drained = false)
      (hawake : s.drains.lookup k = none ∨ .drain k ∉ s.sleeping) :
      CallMove s a { s with
        drains := s.drains.insert k none, sleeping := .drain k :: s.sleeping }

variable {s u : State}

theorem drainWait_move {a : CallAction} {k : Nat} (ha : a = .drainBegin k ∨ a = .drainWait k)
    (hfree : s.holder = none) (hawake : s.drains.lookup k = none ∨ .drain k ∉ s.sleeping) :
    CallMove s a (drainWait s k) := by
  simp only [drainWait]
  split
  · rename_i hdrained
    exact .drained ha hfree hdrained hawake
  · rename_i hdrained
    exact .drainSleeps ha hfree (by simpa using hdrained) hawake

theorem callMove {a : CallAction} (h : callStep s a = some u) : CallMove s a u := by
  cases a with
  | submitBegin k spec handler =>
    simp only [callStep] at h
    split at h
    · rename_i hlife _
      cases h
      simp only [submitBegin]
      split
      · rename_i hchecks
        exact .passChecks hlife hchecks
      · exact .refuseChecks k spec handler
    · cases h
  | submitRegister =>
    simp only [callStep] at h
    split at h
    · rename_i k spec handler hlife
      cases h
      simp only [submitRegister]
      obtain ⟨status, hno, he⟩ | ⟨-, -, he⟩ := s.taskManager.register_cases spec handler
      · simp only [he, hno]
        exact .refuseRegister k status
      · simp only [he]
        exact .register _ hlife
    · cases h
  | enqueueBegin =>
    simp only [callStep] at h
    split at h
    · rename_i hlife hfree
      cases h
      simp only [enqueueBegin]
      split
      · exact .refuseEnqueue _ _
      · exact .enterEnqueue hlife hfree
    · cases h
  | enqueueMark =>
    simp only [callStep] at h
    split at h
    · rename_i hholder
      cases h
      simp only [enqueueMark]
      split
      · exact .markQueued _ hholder
      · exact .refuseMark _ _ hholder
    · cases h
  | enqueuePush woken =>
    simp only [callStep] at h
    split at h
    · rename_i hholder
      obtain ⟨sleeping, hwoken, rfl⟩ := Option.map_eq_some_iff.mp h
      exact .push hholder hwoken
    · cases h
  | cancelBegin k t =>
    simp only [callStep] at h
    split at h
    · rename_i hfree _
      cases h
      simp only [cancelBegin]
      split
      · exact .notFound _ hfree
      · split
        · exact .beginRemove hfree
        · exact .beginCancel hfree
    · cases h
  | cancelRemove =>
    simp only [callStep] at h
    split at h
    · rename_i k t hholder
      cases h
      simp only [cancelRemove, TaskQueue.remove]
      by_cases hmem : t ∈ s.queue
      · simp only [hmem, if_true]
        exact .remove hholder hmem
      · simp only [hmem, if_false]
        exact .refuseRemove _ hholder hmem
    · cases h
  | cancelTask =>
    simp only [callStep] at h
    split at h
    · rename_i hholder
      cases h
      simp only [cancelTask]
      split
      · rename_i hok
        exact .cancel _ _ hholder hok
      · rename_i hno
        exact .refuseCancel _ _ hholder (by simpa using hno)
    · cases h
  | cancelReturn woken =>
    simp only [callStep] at h
    split at h
    · rename_i hholder
      obtain ⟨sleeping, hwoken, rfl⟩ := Option.map_eq_some_iff.mp h
      exact .notify hholder hwoken
    · rename_i hholder
      cases h
      exact .cancelled hholder
    · cases h
  | drainBegin k =>
    simp only [callStep] at h
    split at h
    · rename_i hfree hnew
      cases h
      simp only [drainBegin]
      split
      · exact drainWait_move (.inl rfl) hfree (.inl hnew)
      · exact .drainRefused _ (by simp) hnew
    · cases h
  | drainWait k =>
    simp only [callStep] at h
    split at h
    · rename_i hfree _
      split at h
      · cases h
      · rename_i hawake
        cases h
        exact drainWait_move (.inr rfl) hfree (.inr hawake)
    · cases h

/-- A section of `Submit` before `Enqueue` leaves `mu_` where it is. -/
theorem callStep_holder_submit {a : CallAction} (h : callStep s a = some u)
    (ha : a = .submitRegister ∨ ∃ k spec handler, a = .submitBegin k spec handler) :
    u.holder = s.holder := by
  obtain rfl | ⟨k, spec, handler, rfl⟩ := ha
  · cases callMove h with
    | refuseRegister | register => rfl
    | drained ha | drainSleeps ha => obtain ha | ha := ha <;> cases ha
  · cases callMove h with
    | refuseChecks | passChecks => rfl
    | drained ha | drainSleeps ha => obtain ha | ha := ha <;> cases ha

/-! ## The scheduler and the worker threads -/

def TryPhase.isObserving : TryPhase → Bool
  | .observing _ _ _ _ => true
  | _ => false

/-- What the scheduler thread can touch, failures included. -/
inductive LoopMove (s : State) : LoopAction → State → Prop where
  | rest (a loop wake sleeping) (hfree : s.holder = none) :
      LoopMove s a { s with loop := loop, wakeRequested := wake, sleeping := sleeping }
  /-- `TryScheduleOne` is entered, or goes on. -/
  | goesOn {a} (phase tm rm pool queue running)
      (hholder : s.holder = none ∨ ∃ old, s.holder = some (.scheduling old))
      (hphase : phase.isObserving = false ∨ a = .trySpec ∨ a = .tryObserve) :
      LoopMove s a ({ s with
        taskManager := tm, resourceManager := rm, pool := pool, queue := queue,
        running := running }.setTry phase)
  | returns {a} (dispatched pool)
      (hholder : s.holder = none ∨ ∃ old, s.holder = some (.scheduling old)) :
      LoopMove s a ({ s with pool := pool }.tryReturns dispatched)

theorem loopMove {a : LoopAction} (h : loopStep s a = some u) : LoopMove s a u := by
  cases a with
  | wait =>
    simp only [loopStep] at h
    split at h
    · rename_i hfree
      split at h
      · cases h
      · cases h
        simp only [loopWait]
        split
        · exact .rest _ _ _ _ hfree
        · split <;> exact .rest _ _ _ _ hfree
    · cases h
  | check =>
    simp only [loopStep] at h
    split at h
    · rename_i hfree
      cases h
      exact .rest _ _ _ _ hfree
    · cases h
  | tryBegin =>
    simp only [loopStep] at h
    split at h
    · rename_i hfree
      cases h
      simp only [tryBegin]
      split
      · exact .returns _ _ (.inl hfree)
      · split
        · exact .returns _ _ (.inl hfree)
        · exact .goesOn _ _ _ _ _ _ (.inl hfree) (.inl rfl)
    · cases h
  | trySpec =>
    simp only [loopStep] at h
    split at h
    · rename_i t hholder
      cases h
      simp only [trySpec]
      split
      · exact .returns _ _ (.inr ⟨_, hholder⟩)
      · exact .goesOn _ _ _ _ _ _ (.inr ⟨_, hholder⟩) (.inr (.inl rfl))
    · cases h
  | tryObserve =>
    simp only [loopStep] at h
    split at h
    · rename_i t spec rest idle hholder
      cases h
      simp only [tryObserve]
      split
      · split
        · exact .returns _ _ (.inr ⟨_, hholder⟩)
        · exact .goesOn _ _ _ _ _ _ (.inr ⟨_, hholder⟩) (.inr (.inr rfl))
      · split <;> exact .goesOn _ _ _ _ _ _ (.inr ⟨_, hholder⟩) (.inr (.inr rfl))
    · cases h
  | trySelect =>
    simp only [loopStep] at h
    split at h
    · rename_i t spec rest hholder
      cases h
      simp only [trySelect]
      split
      · exact .returns _ _ (.inr ⟨_, hholder⟩)
      · split <;> exact .goesOn _ _ _ _ _ _ (.inr ⟨_, hholder⟩) (.inl rfl)
    · cases h
  | tryReserve =>
    simp only [loopStep] at h
    split at h
    · rename_i p hholder
      cases h
      simp only [tryReserve]
      split
      · exact .goesOn _ _ _ _ _ _ (.inr ⟨_, hholder⟩) (.inl rfl)
      · exact .returns _ _ (.inr ⟨_, hholder⟩)
    · cases h
  | tryPop =>
    simp only [loopStep] at h
    split at h
    · rename_i p handler token hholder
      cases h
      simp only [tryPop]
      split
      · exact .goesOn _ _ _ _ _ _ (.inr ⟨_, hholder⟩) (.inl rfl)
      · split <;> exact .goesOn _ _ _ _ _ _ (.inr ⟨_, hholder⟩) (.inl rfl)
    · cases h
  | tryAcquire | tryHandler | tryToken | tryMark =>
    simp only [loopStep] at h
    split at h
    · rename_i hholder
      cases h
      simp only [tryAcquire, tryHandler, tryToken, tryMark]
      split <;> exact .goesOn _ _ _ _ _ _ (.inr ⟨_, hholder⟩) (.inl rfl)
    · cases h
  | tryDispatch =>
    simp only [loopStep] at h
    split at h
    · rename_i p work hholder
      cases h
      simp only [tryDispatch]
      split
      · exact .returns _ _ (.inr ⟨_, hholder⟩)
      · exact .goesOn _ _ _ _ _ _ (.inr ⟨_, hholder⟩) (.inl rfl)
    · cases h
  | undoRelease =>
    simp only [loopStep] at h
    split at h
    · rename_i p hholder
      cases h
      exact .goesOn _ _ _ _ _ _ (.inr ⟨_, hholder⟩) (.inl rfl)
    · cases h
  | undoReserve =>
    simp only [loopStep] at h
    split at h
    · rename_i w hholder
      cases h
      exact .returns _ _ (.inr ⟨_, hholder⟩)
    · cases h

/-- What the thread of a worker can touch. -/
inductive ThreadMove (s : State) : State → Prop where
  | touches (tm rm pool running wake sleeping) : ThreadMove s { s with
      taskManager := tm, resourceManager := rm, pool := pool, running := running,
      wakeRequested := wake, sleeping := sleeping }

theorem threadMove {w : WorkerID} {a : ThreadAction} (h : threadStep s w a = some u) :
    ThreadMove s u := by
  cases a with
  | take =>
    obtain ⟨wk, -, rfl⟩ := Option.map_eq_some_iff.mp h
    exact .touches _ _ _ _ _ _
  | markRunning | invoke | leaveHandler | complete | reported | becomeIdle | idleRelease
  | idleWake | idleNotify =>
    simp only [threadStep] at h
    split at h
    · cases h
      exact .touches _ _ _ _ _ _
    · cases h
  | idleErase =>
    simp only [threadStep] at h
    split at h
    · cases h
      simp only [idleErase]
      split <;> exact .touches _ _ _ _ _ _
    · cases h

/-! ## Start and Shutdown -/

inductive LifecycleMove (s : State) : LifecycleAction → State → Prop where
  /-- `Start` of a running runtime, or `Shutdown` of one that is not. -/
  | ignored (a) (hlife : s.lifecycle = none) (hoff : s.control = .off) : LifecycleMove s a s
  | startBegin (rm initialized) {lifecycle} (hlife : s.lifecycle = none) (hoff : s.control = .off)
      (hdown : s.runtimeStarted = false)
      (hnext : lifecycle = none ∨ lifecycle = some .startingPool) :
      LifecycleMove s .startBegin { s with
        resourceManager := rm, resourcesInitialized := initialized, lifecycle := lifecycle }
  | startPool {lifecycle} (hlife : s.lifecycle = some .startingPool)
      (hnext : lifecycle = none ∨ lifecycle = some .startingScheduler) :
      LifecycleMove s .startPool { s with pool := s.pool.start.2, lifecycle := lifecycle }
  | startScheduler (hlife : s.lifecycle = some .startingScheduler) (hfree : s.holder = none)
      (hdown : s.started = false) :
      LifecycleMove s .startScheduler { s with
        stopping := false, wakeRequested := true, started := true, loop := .atWait,
        lifecycle := some .opening }
  | keepScheduler (hlife : s.lifecycle = some .startingScheduler) (hup : s.started = true) :
      LifecycleMove s .startScheduler { s with lifecycle := some .opening }
  | open (hlife : s.lifecycle = some .opening) :
      LifecycleMove s .startOpen
        { s with runtimeStarted := true, accepting := true, lifecycle := none }
  | shutdownBegin (hlife : s.lifecycle = none) (hoff : s.control = .off)
      (hup : s.runtimeStarted = true) :
      LifecycleMove s .shutdownBegin { s with accepting := false, control := .draining }
  | drainRefused (hcontrol : s.control = .draining) (hdown : s.started = false) :
      LifecycleMove s .shutdownDrain { s with control := .off }
  | drained {a}
      (hcontrol : s.control = .draining ∨ s.control = .waitingDrain ∧ .shutdown ∉ s.sleeping)
      (hfree : s.holder = none) (hdrained : s.drained = true) :
      LifecycleMove s a { s with control := .stoppingScheduler }
  | drainSleeps {a}
      (hcontrol : s.control = .draining ∨ s.control = .waitingDrain ∧ .shutdown ∉ s.sleeping)
      (hfree : s.holder = none) (hdrained : s.drained = false) :
      LifecycleMove s a { s with
        control := .waitingDrain, sleeping := .shutdown :: s.sleeping }
  | stop (hcontrol : s.control = .stoppingScheduler) (hfree : s.holder = none)
      (hup : s.started = true) :
      LifecycleMove s .shutdownStop
        { s with stopping := true, wakeRequested := true, control := .notifying }
  | notStarted (hcontrol : s.control = .stoppingScheduler) (hdown : s.started = false) :
      LifecycleMove s .shutdownStop { s with control := .closingPool }
  | notify {woken sleeping} (hcontrol : s.control = .notifying)
      (hwoken : notifyOne s.sleeping woken = some sleeping) :
      LifecycleMove s (.shutdownNotify woken)
        { s with sleeping := sleeping, control := .joiningLoop }
  | join (hcontrol : s.control = .joiningLoop) (hloop : s.loop = .exited ∨ s.loop = .off) :
      LifecycleMove s .shutdownJoin { s with loop := .off, control := .loopJoined }
  | stopped (hcontrol : s.control = .loopJoined) (hfree : s.holder = none) :
      LifecycleMove s .shutdownStopped { s with started := false, control := .closingPool }
  | closePool (hcontrol : s.control = .closingPool) :
      LifecycleMove s .shutdownPool { s with
        pool := s.pool.close, control := .stoppingWorkers s.pool.workerIds }
  | poolDown (hcontrol : s.control = .closingPool) (hdown : s.pool.started = false) :
      LifecycleMove s .shutdownPool { s with control := .publishing }
  | stopWorker {w rest} (hcontrol : s.control = .stoppingWorkers (w :: rest)) :
      LifecycleMove s .shutdownWorker
        { s.setWorker w (s.worker w).requestStop with control := .joiningWorker w rest }
  | skipWorker {w rest} (hcontrol : s.control = .stoppingWorkers (w :: rest)) :
      LifecycleMove s .shutdownWorker { s with control := .stoppingWorkers rest }
  | allStopped (hcontrol : s.control = .stoppingWorkers []) :
      LifecycleMove s .shutdownWorker { s with control := .publishing }
  | joinWorker {w rest} (hcontrol : s.control = .joiningWorker w rest) :
      LifecycleMove s .shutdownJoinWorker { s with control := .resettingWorker w rest }
  | resetWorker {w rest} (hcontrol : s.control = .resettingWorker w rest) :
      LifecycleMove s .shutdownReset
        { s.setWorker w (s.worker w).reset with control := .stoppingWorkers rest }
  | publish (hcontrol : s.control = .publishing) (hlife : s.lifecycle = none) :
      LifecycleMove s .shutdownPublish
        { s with runtimeStarted := false, accepting := false, control := .off }

theorem shutdownWait_move {a : LifecycleAction}
    (hcontrol : s.control = .draining ∨ s.control = .waitingDrain ∧ .shutdown ∉ s.sleeping)
    (hfree : s.holder = none) :
    LifecycleMove s a (shutdownWait s) := by
  simp only [shutdownWait]
  split
  · rename_i hdrained
    exact .drained hcontrol hfree hdrained
  · rename_i hdrained
    exact .drainSleeps hcontrol hfree (by simpa using hdrained)

theorem lifecycleMove {a : LifecycleAction} (h : lifecycleStep s a = some u) :
    LifecycleMove s a u := by
  cases a with
  | startBegin =>
    simp only [lifecycleStep] at h
    split at h
    · rename_i hlife hoff
      cases h
      simp only [startBegin]
      split
      · exact .ignored _ hlife hoff
      · rename_i hdown
        have hdown : s.runtimeStarted = false := by simpa using hdown
        split
        · exact .startBegin _ _ hlife hoff hdown (.inr rfl)
        · split
          · exact .startBegin _ _ hlife hoff hdown (.inr rfl)
          · exact .startBegin _ s.resourcesInitialized hlife hoff hdown (.inl hlife)
    · cases h
  | startPool =>
    simp only [lifecycleStep] at h
    split at h
    · rename_i hlife
      cases h
      refine .startPool hlife ?_
      split
      · exact .inr rfl
      · exact .inl rfl
    · cases h
  | startScheduler =>
    simp only [lifecycleStep] at h
    split at h
    · rename_i hlife hfree
      cases h
      simp only [startScheduler]
      split
      · rename_i hup
        exact .keepScheduler hlife hup
      · rename_i hdown
        exact .startScheduler hlife hfree (by simpa using hdown)
    · cases h
  | startOpen =>
    simp only [lifecycleStep] at h
    split at h
    · rename_i hlife
      cases h
      exact .open hlife
    · cases h
  | shutdownBegin =>
    simp only [lifecycleStep] at h
    split at h
    · rename_i hlife hoff
      split at h
      · rename_i hup
        cases h
        exact .shutdownBegin hlife hoff hup
      · cases h
        exact .ignored _ hlife hoff
    · cases h
  | shutdownDrain =>
    simp only [lifecycleStep] at h
    split at h
    · rename_i hcontrol hfree
      split at h
      · cases h
        exact shutdownWait_move (.inl hcontrol) hfree
      · rename_i hdown
        cases h
        exact .drainRefused hcontrol (by simpa using hdown)
    · cases h
  | shutdownDrained =>
    simp only [lifecycleStep] at h
    split at h
    · rename_i hcontrol hfree
      split at h
      · cases h
      · rename_i hawake
        cases h
        exact shutdownWait_move (.inr ⟨hcontrol, hawake⟩) hfree
    · cases h
  | shutdownStop =>
    simp only [lifecycleStep] at h
    split at h
    · rename_i hcontrol hfree
      cases h
      simp only [shutdownStop]
      split
      · rename_i hup
        exact .stop hcontrol hfree hup
      · rename_i hdown
        exact .notStarted hcontrol (by simpa using hdown)
    · cases h
  | shutdownNotify woken =>
    simp only [lifecycleStep] at h
    split at h
    · rename_i hcontrol
      obtain ⟨sleeping, hwoken, rfl⟩ := Option.map_eq_some_iff.mp h
      exact .notify hcontrol hwoken
    · cases h
  | shutdownJoin =>
    simp only [lifecycleStep] at h
    split at h
    · rename_i hcontrol
      split at h
      · rename_i hloop
        cases h
        exact .join hcontrol hloop
      · cases h
    · cases h
  | shutdownStopped =>
    simp only [lifecycleStep] at h
    split at h
    · rename_i hcontrol hfree
      cases h
      exact .stopped hcontrol hfree
    · cases h
  | shutdownPool =>
    simp only [lifecycleStep] at h
    split at h
    · rename_i hcontrol
      cases h
      simp only [shutdownPool]
      split
      · exact .closePool hcontrol
      · rename_i hdown
        exact .poolDown hcontrol (by simpa using hdown)
    · cases h
  | shutdownWorker =>
    simp only [lifecycleStep] at h
    split at h
    · rename_i rest hcontrol
      cases h
      cases rest with
      | nil => exact .allStopped hcontrol
      | cons w rest =>
        simp only [shutdownWorker]
        split
        · exact .stopWorker hcontrol
        · exact .skipWorker hcontrol
    · cases h
  | shutdownJoinWorker =>
    simp only [lifecycleStep] at h
    split at h
    · rename_i hcontrol
      split at h
      · cases h
        exact .joinWorker hcontrol
      · cases h
    · cases h
  | shutdownReset =>
    simp only [lifecycleStep] at h
    split at h
    · rename_i hcontrol
      cases h
      exact .resetWorker hcontrol
    · cases h
  | shutdownPublish =>
    simp only [lifecycleStep] at h
    split at h
    · rename_i hcontrol hlife
      cases h
      exact .publish hcontrol hlife
    · cases h

theorem step_wake {waiter : Waiter} (h : step s (.wake waiter) = some u) :
    u = { s with sleeping := s.sleeping.erase waiter } := by
  simp only [step] at h
  split at h
  · exact (Option.some.inj h).symm
  · cases h

/-! ## Steps that are no section of a call -/

/-- `Scheduler::mu_` is held by `Submit` or `Cancel`. -/
def Holder.isCall : Option Holder → Bool
  | some (.enqueueMark _ _) | some (.enqueuePush _ _) | some (.cancelRemove _ _)
  | some (.cancelTask _ _ _) | some (.cancelReport _ _ _) => true
  | some (.scheduling _) | none => false

/-- `lifecycle_mu_` is held by `Submit`. -/
def LifecycleHolder.inSubmit : Option LifecycleHolder → Bool
  | some (.registering _ _ _) | some (.enqueuing _ _) | some .inEnqueue => true
  | some .startingPool | some .startingScheduler | some .opening | none => false

/-- The scheduler thread, the workers, `Start` and `Shutdown` leave the calls alone. -/
structure CallsKept (s u : State) : Prop where
  submits : u.submits = s.submits
  cancels : u.cancels = s.cancels
  holder : u.holder = s.holder ∨
    Holder.isCall s.holder = false ∧ Holder.isCall u.holder = false
  lifecycle : u.lifecycle = s.lifecycle ∨
    LifecycleHolder.inSubmit s.lifecycle = false ∧ LifecycleHolder.inSubmit u.lifecycle = false

theorem LoopMove.callsKept {a : LoopAction} (h : LoopMove s a u) : CallsKept s u := by
  cases h with
  | rest => exact ⟨rfl, rfl, .inl rfl, .inl rfl⟩
  | goesOn _ _ _ _ _ _ hholder | returns _ _ hholder =>
    obtain hholder | ⟨phase, hholder⟩ := hholder <;>
    · refine ⟨rfl, rfl, .inr ⟨?_, rfl⟩, .inl rfl⟩
      rw [hholder]
      rfl

theorem LifecycleMove.callsKept {a : LifecycleAction} (h : LifecycleMove s a u) :
    CallsKept s u := by
  cases h with
  | startBegin _ _ hlife _ _ hnext | startPool hlife hnext =>
    refine ⟨rfl, rfl, .inl rfl, .inr ⟨by rw [hlife]; rfl, ?_⟩⟩
    obtain rfl | rfl := hnext <;> rfl
  | startScheduler hlife | keepScheduler hlife | «open» hlife =>
    exact ⟨rfl, rfl, .inl rfl, .inr ⟨by rw [hlife]; rfl, rfl⟩⟩
  | ignored | shutdownBegin | drainRefused | drained | drainSleeps | stop | notStarted | notify
  | join | stopped | closePool | poolDown | stopWorker | skipWorker | allStopped | joinWorker
  | resetWorker | publish => exact ⟨rfl, rfl, .inl rfl, .inl rfl⟩

theorem step_callsKept {a : Action} (h : step s a = some u) (ha : ∀ b, a ≠ .call b) :
    CallsKept s u := by
  cases a with
  | call b => exact absurd rfl (ha b)
  | loop a => exact (loopMove h).callsKept
  | thread w a =>
    cases threadMove h
    exact ⟨rfl, rfl, .inl rfl, .inl rfl⟩
  | lifecycle a => exact (lifecycleMove h).callsKept
  | wake waiter =>
    obtain rfl := step_wake h
    exact ⟨rfl, rfl, .inl rfl, .inl rfl⟩

end LocalSystem

end AgentRuntime
