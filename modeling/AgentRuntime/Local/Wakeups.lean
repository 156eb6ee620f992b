import AgentRuntime.Local.Invariant
import AgentRuntime.Local.Moves

/-!
# The wakeups of the scheduler's condition variable

`Run` and `Drain` sleep on the same condition variable with different
predicates. `OnWorkerIdle` wakes all of them, `Enqueue`, `Cancel` and
`Shutdown` wake one. None is forgotten as long as the one that is woken is the
one whose predicate has become true.
-/
namespace AgentRuntime

/-- Between the first section of the idle callback and its `notify_all`. -/
def Thread.inCallback : Thread → Bool
  | .releasing _ | .waking | .announcing => true
  | _ => false

namespace LocalSystem

/-- Some worker is in its idle callback and has still to wake everybody. -/
def callbackOpen (s : State) : Bool :=
  s.pool.workerIds.any fun w => (s.worker w).thread.inCallback

/-- The wait predicate of a sleeping thread. -/
def mayGoOn (s : State) : Waiter → Bool
  | .loop => s.stopping || s.wakeRequested
  | .drain _ | .shutdown => s.drained

/-- `notify_one` wakes the only sleeping threads among those concerned. -/
def wakesAll (s : State) (woken : Option Waiter) (concerned : Waiter → Bool) : Bool :=
  s.sleeping.all fun waiter => !concerned waiter || decide (woken = some waiter)

def Waiter.isLoop : Waiter → Bool
  | .loop => true
  | .drain _ | .shutdown => false

/-- A `notify_one` leaves no thread asleep for whom its section has made the predicate true,
unless an idle callback is about to wake them all. -/
def notifiesRight (s : State) : Action → Bool
  | .call (.enqueuePush woken) | .lifecycle (.shutdownNotify woken) =>
    callbackOpen s || wakesAll s woken Waiter.isLoop
  | .call (.cancelReturn woken) =>
    match s.holder with
    | some (.cancelReport _ true _) =>
      callbackOpen s || wakesAll s woken (fun waiter => waiter.isLoop || s.drained)
    | _ => true
  | _ => true

/-- `Scheduler::mu_` is free, and no section of an idle callback or of `Shutdown` is still
to be followed by its notification. -/
def Settled (s : State) : Prop :=
  s.holder = none ∧ callbackOpen s = false ∧ s.control ≠ .notifying

/-- Every thread that sleeps has reason to. -/
def NoLostWakeup (s : State) : Prop := ∀ waiter ∈ s.sleeping, mayGoOn s waiter = false

/-! ## Who sleeps -/

structure Asleep (s : State) : Prop where
  nodup : s.sleeping.Nodup
  loop : .loop ∈ s.sleeping → s.loop = .atWait
  drain : ∀ k, .drain k ∈ s.sleeping → s.drains.lookup k = some none
  shutdown : .shutdown ∈ s.sleeping → s.control = .waitingDrain

theorem asleep_initial (workerIds : List WorkerID) (capacity : ResourceSet) (callback : Bool) :
    Asleep (.initial workerIds capacity callback) where
  nodup := .nil
  loop h := by cases h
  drain _ h := by cases h
  shutdown h := by cases h

variable {s u : State} {evs : List Event}

/-- Nobody falls asleep, and those who sleep on stay where they are. -/
theorem Asleep.frame (h : Asleep s) (hsub : u.sleeping.Sublist s.sleeping)
    (hloop : s.loop = .atWait → .loop ∈ u.sleeping → u.loop = .atWait)
    (hdrain : ∀ k, s.drains.lookup k = some none → .drain k ∈ u.sleeping →
      u.drains.lookup k = some none)
    (hshutdown : s.control = .waitingDrain → .shutdown ∈ u.sleeping →
      u.control = .waitingDrain) : Asleep u where
  nodup := h.nodup.sublist hsub
  loop hm := hloop (h.loop (hsub.subset hm)) hm
  drain k hm := hdrain k (h.drain k (hsub.subset hm)) hm
  shutdown hm := hshutdown (h.shutdown (hsub.subset hm)) hm

theorem notifyOne_sublist {sleeping sleeping' : List Waiter} {woken : Option Waiter}
    (h : notifyOne sleeping woken = some sleeping') : sleeping'.Sublist sleeping := by
  cases woken with
  | none =>
    simp only [notifyOne] at h
    split at h
    · cases h
      exact List.nil_sublist _
    · cases h
  | some waiter =>
    simp only [notifyOne] at h
    split at h
    · cases h
      exact List.erase_sublist
    · cases h

/-- Whoever is woken is not asleep afterwards. -/
theorem not_mem_of_notifyOne {sleeping sleeping' : List Waiter} {waiter : Waiter}
    (h : notifyOne sleeping (some waiter) = some sleeping') (hn : sleeping.Nodup) :
    waiter ∉ sleeping' := by
  simp only [notifyOne] at h
  split at h
  · cases h
    exact hn.not_mem_erase
  · cases h

theorem callMove_asleep {a : CallAction} (h : CallMove s a u) (hs : Asleep s) : Asleep u := by
  -- calls other than `Drain` leave the places of the sleeping threads alone
  have stays : ∀ {u : State}, u.sleeping.Sublist s.sleeping → u.loop = s.loop →
      u.drains = s.drains → u.control = s.control → Asleep u := by
    intro u hsub hloop hdrains hcontrol
    refine hs.frame hsub (fun hl _ => hloop.trans hl) (fun k hk _ => ?_)
      (fun hc _ => hcontrol.trans hc)
    rw [hdrains]
    exact hk
  -- a `Drain` that returns was not asleep
  have returns : ∀ (k : Nat) (status : Status), .drain k ∉ s.sleeping →
      Asleep { s with drains := s.drains.insert k (some status) } := by
    intro k status hnot
    refine hs.frame (.refl _) (fun hl _ => hl) (fun k' hk hm => ?_) (fun hc _ => hc)
    have hne : k' ≠ k := fun he => hnot (he ▸ hm)
    rwa [UnorderedMap.lookup_insert_eq, if_neg hne]
  have fresh : ∀ {k : Nat}, s.drains.lookup k = none → .drain k ∉ s.sleeping := by
    intro k hnew hm
    rw [hs.drain k hm] at hnew
    cases hnew
  cases h with
  | push _ hwoken | notify _ hwoken => exact stays (notifyOne_sublist hwoken) rfl rfl rfl
  | refuseChecks | refuseRegister | refuseEnqueue | passChecks | register | enterEnqueue
  | markQueued | refuseMark | notFound
  | beginRemove | beginCancel | remove | refuseRemove | cancel | refuseCancel | cancelled =>
    exact stays (.refl _) rfl rfl rfl
  | drainRefused status _ hnew => exact returns _ status (fresh hnew)
  | drained _ _ _ hawake => exact returns _ _ (hawake.elim fresh id)
  | @drainSleeps _ k _ _ _ hawake =>
    have hnot : .drain k ∉ s.sleeping := hawake.elim fresh id
    refine ⟨List.nodup_cons.mpr ⟨hnot, hs.nodup⟩, fun hm => ?_, fun k' hm => ?_, fun hm => ?_⟩
    · exact hs.loop (by simpa using hm)
    · rw [UnorderedMap.lookup_insert_eq]
      split
      · rfl
      · rename_i hne
        exact hs.drain k' (by simpa [hne] using hm)
    · exact hs.shutdown (by simpa using hm)

/-! ## Who has reason to sleep -/

/-- The owner of `mu_` has emptied the queue, and has still to fill `running_` or to notify. -/
def Holder.emptying : Option Holder → Bool
  | some (.cancelTask _ _ true) | some (.cancelReport _ true _)
  | some (.scheduling (.marking _ _ _)) => true
  | _ => false

structure Alert (s : State) : Prop where
  loop : .loop ∈ s.sleeping → s.control ≠ .notifying → callbackOpen s = false →
    s.stopping = false ∧ s.wakeRequested = false
  drain : ∀ waiter ∈ s.sleeping, waiter ≠ .loop → Holder.emptying s.holder = false →
    callbackOpen s = false → s.drained = false

theorem alert_initial (workerIds : List WorkerID) (capacity : ResourceSet) (callback : Bool) :
    Alert (.initial workerIds capacity callback) where
  loop h := by cases h
  drain _ h := by cases h

/-- While an idle callback is open nobody needs a reason. -/
theorem alert_of_open (h : callbackOpen u = true) : Alert u where
  loop _ _ hno := by
    rw [h] at hno
    cases hno
  drain _ _ _ _ hno := by
    rw [h] at hno
    cases hno

/-- No predicate becomes true. -/
theorem Alert.frame (h : Alert s) (hsub : u.sleeping.Sublist s.sleeping)
    (hopen : callbackOpen u = callbackOpen s) (hcontrol : u.control = s.control)
    (hstopping : u.stopping = s.stopping) (hwake : u.wakeRequested = s.wakeRequested)
    (hdrained : Holder.emptying u.holder = false →
      (Holder.emptying s.holder = false → s.drained = false) → u.drained = false) : Alert u where
  loop hm hc ho := by
    rw [hcontrol] at hc
    rw [hopen] at ho
    rw [hstopping, hwake]
    exact h.loop (hsub.subset hm) hc ho
  drain waiter hm hne he ho := by
    rw [hopen] at ho
    exact hdrained he (fun hs => h.drain waiter (hsub.subset hm) hne hs ho)

theorem callbackOpen_congr (hids : u.pool.workerIds = s.pool.workerIds)
    (hthread : ∀ w, (u.worker w).thread.inCallback = (s.worker w).thread.inCallback) :
    callbackOpen u = callbackOpen s := by
  simp only [callbackOpen, hids, hthread]

/-- The thread woken is the only one concerned. -/
theorem eq_of_wakesAll {woken : Option Waiter} {concerned : Waiter → Bool} {waiter : Waiter}
    (h : wakesAll s woken concerned = true) (hm : waiter ∈ s.sleeping)
    (hc : concerned waiter = true) : woken = some waiter := by
  simpa [hc] using List.all_eq_true.mp h waiter hm

/-- Nobody concerned is left asleep. -/
theorem not_mem_of_wakesAll {woken : Option Waiter} {concerned : Waiter → Bool} {waiter : Waiter}
    {sleeping : List Waiter} (h : wakesAll s woken concerned = true) (hs : Asleep s)
    (hn : notifyOne s.sleeping woken = some sleeping) (hc : concerned waiter = true) :
    waiter ∉ sleeping := by
  intro hm
  have hwoken := eq_of_wakesAll h ((notifyOne_sublist hn).subset hm) hc
  rw [hwoken] at hn
  exact not_mem_of_notifyOne hn hs.nodup hm

theorem callMove_alert {a : CallAction} (h : CallMove s a u) (hi : Inv s) (hs : Asleep s)
    (hc : Alert s) (hright : notifiesRight s (.call a) = true) : Alert u := by
  cases h with
  | @push k t woken sleeping hholder hwoken =>
    simp only [notifiesRight, Bool.or_eq_true] at hright
    obtain hopen | hwakes := hright
    · exact alert_of_open hopen
    · refine ⟨fun hm => ?_, fun _ _ _ _ _ => ?_⟩
      · exact absurd hm (not_mem_of_wakesAll hwakes hs hwoken rfl)
      · simp [State.drained, enqueuePush, State.submitReturns, TaskQueue.push]
  | @notify k completion woken sleeping hholder hwoken =>
    simp only [notifiesRight, hholder, Bool.or_eq_true] at hright
    obtain hopen | hwakes := hright
    · exact alert_of_open hopen
    · refine ⟨fun hm => ?_, fun waiter hm _ _ _ => ?_⟩
      · exact absurd hm (not_mem_of_wakesAll hwakes hs hwoken rfl)
      · cases hd : s.drained with
        | false => exact hd
        | true => exact absurd hm (not_mem_of_wakesAll hwakes hs hwoken (by simp [hd]))
  | drained _ hfree _ =>
    exact hc.frame (.refl _) rfl rfl rfl rfl (fun _ hd => hd (by rw [hfree]; rfl))
  | drainSleeps _ _ hdrained =>
    exact ⟨fun hm hn ho => hc.loop (by simpa using hm) hn ho, fun _ _ _ _ _ => hdrained⟩
  | remove => exact hc.frame (.refl _) rfl rfl rfl rfl (fun he _ => by cases he)
  | @cancel k t queued tm completion hholder =>
    refine hc.frame (.refl _) rfl rfl rfl rfl (fun he hd => ?_)
    cases queued with
    | true => cases he
    | false => exact hd (by rw [hholder]; rfl)
  | @refuseCancel k t queued tm status hholder hno =>
    refine hc.frame (.refl _) rfl rfl rfl rfl (fun _ hd => ?_)
    cases queued with
    | true =>
      rw [hi.cancel_ok hholder] at hno
      cases hno
    | false => exact hd (by rw [hholder]; rfl)
  | refuseChecks | passChecks | refuseRegister | register | refuseEnqueue | notFound
  | drainRefused => exact hc.frame (.refl _) rfl rfl rfl rfl (fun he hd => hd he)
  | enterEnqueue _ hholder | refuseMark _ _ hholder | markQueued _ hholder | beginRemove hholder
  | beginCancel hholder | refuseRemove _ hholder | cancelled hholder =>
    exact hc.frame (.refl _) rfl rfl rfl rfl (fun _ hd => hd (by rw [hholder]; rfl))

/-! ## The threads -/

/-- The scheduler thread is awake, and it moves on. -/
theorem Asleep.awake (h : Asleep s) (hloop : s.loop ≠ .atWait) (hsleeping : u.sleeping = s.sleeping)
    (hdrains : u.drains = s.drains) (hcontrol : u.control = s.control) : Asleep u := by
  refine h.frame (by rw [hsleeping]) (fun hl => absurd hl hloop) (fun k hk _ => ?_)
    (fun hc _ => hcontrol.trans hc)
  rw [hdrains]
  exact hk

theorem LoopEffect.awake (h : LoopEffect s evs u) (hheld : s.holder ≠ none) (hst : Stage s)
    (hs : Asleep s) (hc : Alert s) : Asleep u ∧ Alert u := by
  have entering : ∀ {phase}, s.holder = some (.scheduling phase) → s.loop ≠ .atWait := by
    intro phase hholder
    rw [hst.scheduling phase hholder]
    simp
  -- writing to a worker does not move its thread
  have threads : ∀ {w worker}, worker.thread = (s.worker w).thread → ∀ w',
      (if w' = w then worker else s.worker w').thread.inCallback =
        (s.worker w').thread.inCallback := by
    intro w worker hsame w'
    split
    · rename_i he
      rw [hsame, he]
    · rfl
  cases h with
  | rest _ _ _ hfree | peek hfree => exact absurd hfree hheld
  | spec hholder | observe _ hholder | choose hholder | skip hholder | select hholder
  | acquire hholder | handler hholder | token hholder =>
    exact ⟨hs.awake (entering hholder) rfl rfl rfl,
      hc.frame (.refl _) rfl rfl rfl rfl (fun _ hd => hd (by rw [hholder]; rfl))⟩
  | giveUp hholder hphase =>
    refine ⟨hs.awake (entering hholder) rfl rfl rfl, hc.frame (.refl _) rfl rfl rfl rfl ?_⟩
    intro _ hd
    obtain ⟨_, _, _, rfl⟩ | ⟨_, _, rfl⟩ := hphase <;> exact hd (by rw [hholder]; rfl)
  | reserve hholder =>
    exact ⟨hs.awake (entering hholder) rfl rfl rfl,
      hc.frame (.refl _) (callbackOpen_congr rfl (threads rfl)) rfl rfl rfl
        (fun _ hd => hd (by rw [hholder]; rfl))⟩
  | pop hholder =>
    exact ⟨hs.awake (entering hholder) rfl rfl rfl,
      hc.frame (.refl _) rfl rfl rfl rfl (fun he _ => by cases he)⟩
  | @mark p handler token record executionId hholder hrecord hqueued =>
    refine ⟨hs.awake (entering hholder) rfl rfl rfl,
      hc.frame (.refl _) rfl rfl rfl rfl (fun _ _ => ?_)⟩
    have hentry : s.running.emplace p.worker ⟨p.task, p.spec.resources⟩ ≠ ∅ := by
      intro hempty
      have hlookup : (s.running.emplace p.worker ⟨p.task, p.spec.resources⟩).lookup p.worker ≠
          none := by
        cases hl : s.running.lookup p.worker with
        | none => simp [UnorderedMap.emplace_of_none _ hl]
        | some reservation => simp [UnorderedMap.emplace_of_some _ hl, hl]
      exact hlookup (by simp [hempty])
    simp [State.drained, State.setTry, hentry]
  | dispatch hholder =>
    exact ⟨hs.awake (entering hholder) rfl rfl rfl,
      hc.frame (.refl _) (callbackOpen_congr rfl (threads rfl)) rfl rfl rfl
        (fun _ hd => hd (by rw [hholder]; rfl))⟩

/-- The scheduler thread goes to sleep only while it has nothing to do. -/
theorem loopWait_awake (hs : Asleep s) (hc : Alert s) (hloop : s.loop = .atWait)
    (hawake : .loop ∉ s.sleeping) : Asleep (loopWait s) ∧ Alert (loopWait s) := by
  have up : ∀ (wake : Bool) (loop : LoopPhase),
      Asleep { s with wakeRequested := wake, loop := loop } ∧
      Alert { s with wakeRequested := wake, loop := loop } := by
    intro wake loop
    refine ⟨hs.frame (.refl _) (fun _ hm => absurd hm hawake) (fun _ hk _ => hk)
      (fun hc _ => hc), fun hm => absurd hm hawake, hc.drain⟩
  simp only [loopWait]
  split
  · exact up s.wakeRequested .exited
  · rename_i hstopping
    split
    · exact up false .looping
    · rename_i hwake
      constructor
      · refine ⟨List.nodup_cons.mpr ⟨hawake, hs.nodup⟩, fun _ => hloop, fun k hm => ?_,
          fun hm => ?_⟩
        · exact hs.drain k (by simpa using hm)
        · exact hs.shutdown (by simpa using hm)
      · refine ⟨fun _ _ _ => ⟨by simpa using hstopping, by simpa using hwake⟩, ?_⟩
        intro waiter hm hne he ho
        exact hc.drain waiter (by simpa [hne] using hm) hne he ho

theorem loopStep_awake {a : LoopAction} (h : loopStep s a = some u) (hi : Inv s) (hs : Asleep s)
    (hc : Alert s) : Asleep u ∧ Alert u := by
  -- in the sections of `Run` that take `mu_` and do not wait
  have runs : ∀ {u : State}, s.holder = none → s.loop ≠ .atWait → u.pool = s.pool →
      u.sleeping = s.sleeping → u.drains = s.drains → u.control = s.control →
      u.stopping = s.stopping → u.wakeRequested = s.wakeRequested → u.drained = s.drained →
      Asleep u ∧ Alert u := by
    intro u hfree hloop hpool hsleeping hdrains hcontrol hstopping hwake hdrained
    have hopen : callbackOpen u = callbackOpen s :=
      callbackOpen_congr (by rw [hpool]) (fun w => by simp only [State.worker, hpool])
    refine ⟨hs.awake hloop hsleeping hdrains hcontrol,
      hc.frame (by rw [hsleeping]) hopen hcontrol hstopping hwake (fun _ hd => ?_)⟩
    rw [hdrained]
    exact hd (by rw [hfree]; rfl)
  cases a with
  | wait =>
    simp only [loopStep] at h
    split at h
    · rename_i hloop hfree
      split at h
      · cases h
      · rename_i hawake
        cases h
        exact loopWait_awake hs hc hloop hawake
    · cases h
  | check =>
    simp only [loopStep] at h
    split at h
    · rename_i hloop hfree
      cases h
      exact runs hfree (by simp [hloop]) rfl rfl rfl rfl rfl rfl rfl
    · cases h
  | tryBegin =>
    simp only [loopStep] at h
    split at h
    · rename_i hloop hfree
      cases h
      simp only [tryBegin]
      split
      · exact runs hfree (by simp [hloop]) rfl rfl rfl rfl rfl rfl rfl
      · split <;> exact runs hfree (by simp [hloop]) rfl rfl rfl rfl rfl rfl rfl
    · cases h
  | trySpec | tryObserve | trySelect | tryReserve | tryAcquire | tryHandler | tryToken | tryPop
  | tryMark | tryDispatch | undoRelease | undoReserve =>
    refine (loopEffect h hi.unfailing).awake (fun hfree => ?_) hi.stage hs hc
    simp [loopStep, hfree] at h

/-- A worker whose thread runs is one of the pool. -/
theorem Inv.mem_of_thread (h : Inv s) {w : WorkerID} (hon : (s.worker w).thread ≠ .off) :
    w ∈ s.pool.workerIds := by
  refine h.slots.listed w ?_
  cases hup : (s.pool.workers w).started with
  | true => rfl
  | false => exact absurd ((h.slots.wellFormed w).down hup).2 hon

theorem ThreadEffect.awake {w : WorkerID} (h : ThreadEffect s w evs u) (hi : Inv s)
    (hs : Asleep s) (hc : Alert s) : Asleep u ∧ Alert u := by
  have still : ∀ {u : State}, u.sleeping = s.sleeping → u.loop = s.loop → u.drains = s.drains →
      u.control = s.control → Asleep u := by
    intro u hsleeping hloop hdrains hcontrol
    refine hs.frame (by rw [hsleeping]) (fun hl _ => hloop.trans hl) (fun k hk _ => ?_)
      (fun hc _ => hcontrol.trans hc)
    rw [hdrains]
    exact hk
  have outside : ∀ {worker : Worker}, (s.worker w).thread.inCallback = false →
      worker.thread.inCallback = false → ∀ w',
      (if w' = w then worker else s.worker w').thread.inCallback =
        (s.worker w').thread.inCallback := by
    intro worker hbefore hafter w'
    split
    · rename_i he
      rw [hafter, he, hbefore]
    · rfl
  -- and inside the callback nobody needs a reason to sleep
  have inside : ∀ {u : State} {before : Thread}, (s.worker w).thread = before → before ≠ .off →
      u.pool.workerIds = s.pool.workerIds → (u.worker w).thread.inCallback = true → Alert u := by
    intro u before hthread hon hids hin
    refine alert_of_open (List.any_eq_true.mpr ⟨w, ?_, hin⟩)
    rw [hids]
    exact hi.mem_of_thread (by rw [hthread]; exact hon)
  cases h with
  | take hthread | leave hthread | markRunning hthread | invoke hthread | leaveHandler _ hthread
  | reported hthread | becomeIdle hthread =>
    exact ⟨still rfl rfl rfl rfl, hc.frame (.refl _)
      (callbackOpen_congr rfl (outside (by rw [hthread]; rfl) rfl)) rfl rfl rfl
      (fun he hd => hd he)⟩
  | complete thread hthread _ _ hnext =>
    refine ⟨still rfl rfl rfl rfl, hc.frame (.refl _)
      (callbackOpen_congr rfl (outside (by rw [hthread]; rfl) ?_)) rfl rfl rfl
      (fun he hd => hd he)⟩
    obtain rfl | ⟨completion, -, rfl⟩ := hnext <;> rfl
  | erase hthread | eraseNone hthread | release hthread | wake _ hthread =>
    exact ⟨still rfl rfl rfl rfl, inside hthread (by simp) rfl (by simp [Worker.setThread,
      Thread.inCallback])⟩
  | announce =>
    refine ⟨hs.frame (List.nil_sublist _) (fun _ hm => by cases hm) (fun _ _ hm => by cases hm)
      (fun _ hm => by cases hm), (fun hm => by cases hm), (fun _ hm => by cases hm)⟩

/-! ## Start and Shutdown -/

/-- `Shutdown` is not waiting in `Drain`, so it is not asleep. -/
theorem Asleep.shutdown_awake (h : Asleep s) (hc : s.control ≠ .waitingDrain) :
    .shutdown ∉ s.sleeping := fun hm => hc (h.shutdown hm)

/-- `Start` and `Shutdown` move on, and no sleeping thread is concerned. -/
theorem Alert.advance (hc : Alert s) (hsleeping : u.sleeping = s.sleeping)
    (hopen : callbackOpen u = callbackOpen s) (hholder : u.holder = s.holder)
    (hdrained : u.drained = s.drained)
    (hloop : .loop ∈ s.sleeping → u.control ≠ .notifying → s.control ≠ .notifying ∧
      u.stopping = s.stopping ∧ u.wakeRequested = s.wakeRequested) : Alert u where
  loop hm hn ho := by
    rw [hsleeping] at hm
    rw [hopen] at ho
    obtain ⟨hn', hstopping, hwake⟩ := hloop hm hn
    rw [hstopping, hwake]
    exact hc.loop hm hn' ho
  drain waiter hm hne he ho := by
    rw [hsleeping] at hm
    rw [hopen] at ho
    rw [hholder] at he
    rw [hdrained]
    exact hc.drain waiter hm hne he ho

theorem callbackOpen_start (hs : Slots s.pool s.holder) (lifecycle : Option LifecycleHolder) :
    callbackOpen { s with pool := s.pool.start.2, lifecycle := lifecycle } = callbackOpen s := by
  refine callbackOpen_congr ?_ (fun w => ?_)
  · simp only [WorkerPool.start]
    split <;> rfl
  · simp only [State.worker, WorkerPool.start]
    split
    · rfl
    · simp only [Worker.start]
      split
      · split
        · rfl
        · rename_i hdown
          rw [((hs.wellFormed w).down (by simpa using hdown)).2]
          rfl
      · rfl

theorem lifecycleMove_awake {a : LifecycleAction} (h : LifecycleMove s a u) (hi : Inv s)
    (hs : Asleep s) (hc : Alert s) (hright : notifiesRight s (.lifecycle a) = true) :
    Asleep u ∧ Alert u := by
  have still : ∀ {u : State}, u.sleeping = s.sleeping → u.loop = s.loop → u.drains = s.drains →
      (s.control = .waitingDrain → u.control = .waitingDrain) → Asleep u := by
    intro u hsleeping hloop hdrains hcontrol
    refine hs.frame (by rw [hsleeping]) (fun hl _ => hloop.trans hl) (fun k hk _ => ?_)
      (fun hc _ => hcontrol hc)
    rw [hdrains]
    exact hk
  cases h with
  | ignored => exact ⟨hs, hc⟩
  | startBegin | keepScheduler | «open» =>
    exact ⟨still rfl rfl rfl id, hc.advance rfl rfl rfl rfl (fun _ hn => ⟨hn, rfl, rfl⟩)⟩
  | startPool => exact ⟨still rfl rfl rfl id,
      hc.advance rfl (callbackOpen_start hi.slots _) rfl rfl (fun _ hn => ⟨hn, rfl, rfl⟩)⟩
  | startScheduler _ _ hdown =>
    -- the scheduler thread is not there yet
    have hawake : .loop ∉ s.sleeping := by
      intro hm
      have hup := hi.stage.loop_started (by rw [hs.loop hm]; rfl)
      rw [hdown] at hup
      cases hup
    exact ⟨hs.frame (.refl _) (fun _ _ => rfl) (fun _ hk _ => hk) (fun hc _ => hc),
      hc.advance rfl rfl rfl rfl (fun hm => absurd hm hawake)⟩
  | shutdownBegin _ hcontrol _ | drainRefused hcontrol | notStarted hcontrol | stopped hcontrol
  | closePool hcontrol | poolDown hcontrol | skipWorker hcontrol | allStopped hcontrol
  | joinWorker hcontrol | publish hcontrol =>
    exact ⟨still rfl rfl rfl (fun h => by rw [hcontrol] at h; cases h),
      hc.advance rfl rfl rfl rfl (fun _ _ => ⟨by simp [hcontrol], rfl, rfl⟩)⟩
  | drained hcontrol =>
    have hnot : s.control ≠ .notifying ∧ .shutdown ∉ s.sleeping := by
      obtain hdraining | ⟨hwaiting, hawake⟩ := hcontrol
      · exact ⟨by simp [hdraining], hs.shutdown_awake (by simp [hdraining])⟩
      · exact ⟨by simp [hwaiting], hawake⟩
    exact ⟨hs.frame (.refl _) (fun hl _ => hl) (fun _ hk _ => hk) (fun _ hm => absurd hm hnot.2),
      hc.advance rfl rfl rfl rfl (fun _ _ => ⟨hnot.1, rfl, rfl⟩)⟩
  | drainSleeps hcontrol hfree hdrained =>
    have hnot : s.control ≠ .notifying ∧ .shutdown ∉ s.sleeping := by
      obtain hdraining | ⟨hwaiting, hawake⟩ := hcontrol
      · exact ⟨by simp [hdraining], hs.shutdown_awake (by simp [hdraining])⟩
      · exact ⟨by simp [hwaiting], hawake⟩
    constructor
    · refine ⟨List.nodup_cons.mpr ⟨hnot.2, hs.nodup⟩, fun hm => ?_, fun k hm => ?_, fun _ => rfl⟩
      · exact hs.loop (by simpa using hm)
      · exact hs.drain k (by simpa using hm)
    · exact ⟨fun hm _ ho => hc.loop (by simpa using hm) hnot.1 ho, fun _ _ _ _ _ => hdrained⟩
  | stop hcontrol =>
    exact ⟨still rfl rfl rfl (fun h => by rw [hcontrol] at h; cases h),
      hc.advance rfl rfl rfl rfl (fun _ hn => absurd rfl hn)⟩
  | @notify woken sleeping hcontrol hwoken =>
    have hsub := notifyOne_sublist hwoken
    refine ⟨hs.frame hsub (fun hl _ => hl) (fun _ hk _ => hk)
      (fun hc _ => by rw [hcontrol] at hc; cases hc), ?_⟩
    simp only [notifiesRight, Bool.or_eq_true] at hright
    obtain hopen | hwakes := hright
    · exact alert_of_open hopen
    · exact ⟨fun hm => absurd hm (not_mem_of_wakesAll hwakes hs hwoken rfl),
        fun waiter hm => hc.drain waiter (hsub.subset hm)⟩
  | join hcontrol hloop =>
    have hawake : s.loop ≠ .atWait := by
      intro hl
      rw [hl] at hloop
      simp at hloop
    exact ⟨hs.frame (.refl _) (fun hl _ => absurd hl hawake) (fun _ hk _ => hk)
      (fun hc _ => by rw [hcontrol] at hc; cases hc),
      hc.advance rfl rfl rfl rfl (fun _ _ => ⟨by simp [hcontrol], rfl, rfl⟩)⟩
  | stopWorker hcontrol =>
    refine ⟨still rfl rfl rfl (fun h => by rw [hcontrol] at h; cases h),
      hc.advance rfl (callbackOpen_congr rfl (fun w' => ?_)) rfl rfl
        (fun _ _ => ⟨by simp [hcontrol], rfl, rfl⟩)⟩
    simp only [State.worker, State.setWorker, WorkerPool.workers_set]
    split
    · rename_i he
      rw [he]
      rfl
    · rfl
  | @resetWorker w rest hcontrol =>
    refine ⟨still rfl rfl rfl (fun h => by rw [hcontrol] at h; cases h),
      hc.advance rfl (callbackOpen_congr rfl (fun w' => ?_)) rfl rfl
        (fun _ _ => ⟨by simp [hcontrol], rfl, rfl⟩)⟩
    have hexited : (s.pool.workers w).thread = .exited := hi.stage.joined w rest hcontrol
    simp only [State.worker, State.setWorker, WorkerPool.workers_set]
    split
    · rename_i he
      rw [he, hexited]
      rfl
    · rfl

theorem step_awake {a : Action} (h : step s a = some u) (hi : Inv s)
    (hright : notifiesRight s a = true) (hs : Asleep s ∧ Alert s) : Asleep u ∧ Alert u := by
  obtain ⟨hs, hc⟩ := hs
  cases a with
  | call a =>
    have hmove := callMove h
    exact ⟨callMove_asleep hmove hs, callMove_alert hmove hi hs hc hright⟩
  | loop a => exact loopStep_awake h hi hs hc
  | thread w a => exact (threadEffect h hi.unfailing).awake hi hs hc
  | lifecycle a => exact lifecycleMove_awake (lifecycleMove h) hi hs hc hright
  | wake waiter =>
    obtain rfl := step_wake h
    exact ⟨hs.frame List.erase_sublist (fun hl _ => hl) (fun _ hk _ => hk) (fun hc _ => hc),
      hc.frame List.erase_sublist rfl rfl rfl rfl (fun he hd => hd he)⟩

/-! ## The result -/

theorem Alert.noLostWakeup (hc : Alert s) (hsettled : Settled s) : NoLostWakeup s := by
  obtain ⟨hfree, hopen, hcontrol⟩ := hsettled
  intro waiter hm
  cases waiter with
  | loop =>
    obtain ⟨hstopping, hwake⟩ := hc.loop hm hcontrol hopen
    simp [mayGoOn, hstopping, hwake]
  | drain k => exact hc.drain _ hm (by simp) (by rw [hfree]; rfl) hopen
  | shutdown => exact hc.drain _ hm (by simp) (by rw [hfree]; rfl) hopen

/-- Nobody sleeps who could go on, as long as each `notify_one` wakes the thread it is meant for. -/
theorem no_lost_wakeup {workerIds : List WorkerID} {capacity : ResourceSet} {callback : Bool}
    {as : List Action} (h : Run.run step as (.initial workerIds capacity callback) = some s)
    (hright : Run.Along step (fun s a => notifiesRight s a = true) as
      (.initial workerIds capacity callback)) (hsettled : Settled s) : NoLostWakeup s := by
  have hrun := Run.invariant (I := fun s => Inv s ∧ Asleep s ∧ Alert s)
    (fun s a u hs hright hstep => ⟨step_inv hstep hs.1, step_awake hstep hs.1 hright hs.2⟩)
    hright h ⟨inv_initial workerIds capacity callback,
      asleep_initial workerIds capacity callback, alert_initial workerIds capacity callback⟩
  exact hrun.2.2.noLostWakeup hsettled

namespace Sample

/-- The worker has a task, and both the scheduler thread and a `Drain` are asleep. -/
def bothAsleep : List Action :=
  start ++ submit 1 (spec 1) none ++ [.loop .wait] ++ schedule (.ofByte 1) ++
    [.loop .check, .loop .tryBegin, .loop .wait, .call (.drainBegin 1)]

/-- The `notify_one` of the next `Enqueue` wakes the `Drain`. -/
def wrongWoken : List Action := bothAsleep ++ submit 2 (spec 2) (some (.drain 1))

end Sample

set_option maxRecDepth 4000 in
theorem no_lost_wakeup_both_asleep :
    (Run.stateAfter step Sample.bothAsleep Sample.runtime).sleeping = [.drain 1, .loop] ∧
    NoLostWakeup (Run.stateAfter step Sample.bothAsleep Sample.runtime) := by
  have hrun : Run.run step Sample.bothAsleep Sample.runtime =
      some (Run.stateAfter step Sample.bothAsleep Sample.runtime) := Run.run_stateAfter (by decide)
  have hfree : (Run.stateAfter step Sample.bothAsleep Sample.runtime).holder = none :=
    Option.isNone_iff_eq_none.mp (by decide)
  have hcontrol : (Run.stateAfter step Sample.bothAsleep Sample.runtime).control = .off := rfl
  refine ⟨by decide, no_lost_wakeup hrun (by decide) ⟨hfree, by decide, ?_⟩⟩
  rw [hcontrol]
  simp

/-- The scheduler thread sleeps on although it has been asked to look at the queue. -/
theorem loop_left_asleep : ∃ s, Run.run step Sample.wrongWoken Sample.runtime = some s ∧
    Settled s ∧ .loop ∈ s.sleeping ∧ s.wakeRequested = true ∧ ¬ NoLostWakeup s := by
  obtain ⟨s, hrun, hfree, hopen, hcontrol, hasleep, hwake⟩ : ∃ s,
      Run.run step Sample.wrongWoken Sample.runtime = some s ∧ s.holder.isNone = true ∧
      callbackOpen s = false ∧ s.control = .off ∧ .loop ∈ s.sleeping ∧ s.wakeRequested = true :=
    ⟨_, Run.run_stateAfter (by decide), by decide, by decide, rfl, by decide, by decide⟩
  refine ⟨s, hrun, ⟨Option.isNone_iff_eq_none.mp hfree, hopen, by simp [hcontrol]⟩, hasleep, hwake,
    fun hno => ?_⟩
  have hstuck := hno .loop hasleep
  simp [mayGoOn, hwake] at hstuck

end LocalSystem

end AgentRuntime
