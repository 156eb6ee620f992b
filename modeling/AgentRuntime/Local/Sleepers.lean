import AgentRuntime.Local.Prompting

/-!
# Who sleeps is woken

The clients use the interface of `Runtime`, in which `Shutdown` alone drains. So
at most two threads sleep on the condition variable of the scheduler, and no
`notify_one` can wake the wrong one unless a worker is about to wake both.
-/
namespace AgentRuntime

namespace LocalSystem

/-- `Scheduler` is private to `Runtime`, so clients do not call its `Drain`. -/
def publicApi : Action → Bool
  | .call (.drainBegin _) => false
  | _ => true

variable {s u : State} {evs : List Event}

/-! ## Who sleeps -/

/-- No client is inside `Drain`. -/
def Undrained (s : State) : Prop := ∀ k, s.drains.lookup k = none

theorem step_undrained {a : Action} (h : step s a = some u) (hi : Inv s)
    (hpublic : publicApi a = true) (hd : Undrained s) : Undrained u := by
  cases a with
  | call a =>
    have hm := callMove (a := a) h
    cases a with
    | drainBegin k => cases hpublic
    | drainWait k => cases hh : s.holder <;> simp [step, callStep, hh, hd k] at h
    | submitBegin | submitRegister | enqueueBegin | enqueueMark | enqueuePush | cancelBegin
    | cancelRemove | cancelTask | cancelReturn =>
      cases hm with
      | drained ha | drainSleeps ha => obtain ha | ha := ha <;> cases ha
      | _ => exact hd
  | loop a =>
    intro k
    rw [(loopEffect h hi.unfailing).drains.1]
    exact hd k
  | thread w a =>
    intro k
    rw [(threadEffect h hi.unfailing).drains.1]
    exact hd k
  | lifecycle a => cases lifecycleMove h <;> exact hd
  | wake waiter =>
    obtain rfl := step_wake h
    exact hd

/-- The scheduler thread moves only while it is awake, and goes to sleep only when there is
nothing to do. -/
theorem loopStep_sleeping {a : LoopAction} (h : loopStep s a = some u) (hi : Inv s)
    (hs : Asleep s) : .loop ∉ s.sleeping ∧ (u.sleeping = s.sleeping ∨
      s.loop = .atWait ∧ s.holder = none ∧ s.stopping = false ∧ s.wakeRequested = false ∧
        u = { s with sleeping := .loop :: s.sleeping }) := by
  have awake : s.loop ≠ .atWait → .loop ∉ s.sleeping := fun hne hm => hne (hs.loop hm)
  by_cases hheld : s.holder = none
  · cases a with
    | wait =>
      simp only [loopStep, hheld] at h
      split at h
      · rename_i hloop _
        split at h
        · cases h
        · rename_i hawake
          cases h
          refine ⟨hawake, ?_⟩
          simp only [loopWait]
          split
          · exact .inl rfl
          · rename_i hstopping
            split
            · exact .inl rfl
            · rename_i hwake
              exact .inr ⟨hloop, hheld, by simpa using hstopping, by simpa using hwake, rfl⟩
      · cases h
    | check =>
      simp only [loopStep, hheld] at h
      split at h
      · rename_i hloop _
        cases h
        exact ⟨awake (by rw [hloop]; simp), .inl rfl⟩
      · cases h
    | tryBegin =>
      simp only [loopStep, hheld] at h
      split at h
      · rename_i hloop _
        cases h
        refine ⟨awake (by rw [hloop]; simp), .inl ?_⟩
        simp only [tryBegin]
        split
        · rfl
        · split <;> rfl
      · cases h
    | trySpec | tryObserve | trySelect | tryReserve | tryAcquire | tryHandler | tryToken | tryPop
    | tryMark | tryDispatch | undoRelease | undoReserve => simp [loopStep, hheld] at h
  · have entering : ∀ {phase}, s.holder = some (.scheduling phase) → .loop ∉ s.sleeping := by
      intro phase hholder
      exact awake (by rw [hi.stage.scheduling phase hholder]; simp)
    have he := loopEffect h hi.unfailing
    generalize loopEvents s a = evs at he
    cases he with
    | rest _ _ _ hfree | peek hfree => exact absurd hfree hheld
    | spec hholder | observe _ hholder | choose hholder | skip hholder | select hholder
    | giveUp hholder | reserve hholder | acquire hholder | handler hholder | token hholder
    | pop hholder | mark _ hholder | dispatch hholder => exact ⟨entering hholder, .inl rfl⟩

theorem ThreadEffect.sleeping {w : WorkerID} (h : ThreadEffect s w evs u) :
    u.loop = s.loop ∧ (u.sleeping = s.sleeping ∨ u.sleeping = []) := by
  cases h with
  | announce => exact ⟨rfl, .inr rfl⟩
  | take | leave | markRunning | invoke | leaveHandler | complete | reported | becomeIdle
  | erase | eraseNone | release | wake => exact ⟨rfl, .inl rfl⟩

theorem LifecycleMove.asleep {a : LifecycleAction} (h : LifecycleMove s a u) (hi : Inv s)
    (hs : Asleep s) : Asleep u := by
  have still : ∀ {u : State}, u.sleeping.Sublist s.sleeping → u.loop = s.loop →
      u.drains = s.drains → (s.control ≠ .waitingDrain ∨ u.control = .waitingDrain) →
      Asleep u := by
    intro u hsub hloop hdrains hcontrol
    refine hs.frame hsub (fun hl _ => hloop.trans hl) (fun k hk _ => ?_)
      (fun hc _ => hcontrol.resolve_left (fun hne => hne hc))
    rw [hdrains]
    exact hk
  cases h with
  | ignored => exact hs
  | startBegin _ _ _ hoff => exact still (.refl _) rfl rfl (.inl (by rw [hoff]; simp))
  | startPool hlife | keepScheduler hlife | «open» hlife =>
    exact still (.refl _) rfl rfl (.inl (by rw [hi.stage.control_off hlife rfl]; simp))
  | startScheduler hlife hfree hdown =>
    refine hs.frame (.refl _) (fun _ _ => rfl) (fun _ hk _ => hk) (fun hc _ => hc)
  | shutdownBegin _ hoff => exact still (.refl _) rfl rfl (.inl (by rw [hoff]; simp))
  | drained hcontrol =>
    refine ⟨hs.nodup, hs.loop, hs.drain, fun hm => ?_⟩
    obtain hc | ⟨-, hawake⟩ := hcontrol
    · have := hs.shutdown hm
      rw [hc] at this
      cases this
    · exact absurd hm hawake
  | drainSleeps hcontrol =>
    have hawake : .shutdown ∉ s.sleeping := by
      obtain hc | ⟨-, hawake⟩ := hcontrol
      · exact hs.shutdown_awake (by rw [hc]; simp)
      · exact hawake
    refine ⟨List.nodup_cons.mpr ⟨hawake, hs.nodup⟩, fun hm => hs.loop (by simpa using hm),
      fun k hm => hs.drain k (by simpa using hm), fun _ => rfl⟩
  | notify hcontrol hwoken =>
    exact still (notifyOne_sublist hwoken) rfl rfl (.inl (by rw [hcontrol]; simp))
  | join hcontrol hloop =>
    refine hs.frame (.refl _) (fun hl => ?_) (fun _ hk _ => hk) (fun hc => ?_)
    · rw [hl] at hloop
      simp at hloop
    · rw [hcontrol] at hc
      cases hc
  | drainRefused hcontrol | stop hcontrol | notStarted hcontrol | stopped hcontrol
  | closePool hcontrol | poolDown hcontrol | stopWorker hcontrol | skipWorker hcontrol
  | allStopped hcontrol | joinWorker hcontrol | resetWorker hcontrol | publish hcontrol =>
    exact still (.refl _) rfl rfl (.inl (by rw [hcontrol]; simp))

theorem step_asleep {a : Action} (h : step s a = some u) (hi : Inv s) (hs : Asleep s) :
    Asleep u := by
  cases a with
  | call a => exact callMove_asleep (callMove h) hs
  | loop a =>
    obtain ⟨hdrains, hcontrol⟩ := (loopEffect h hi.unfailing).drains
    obtain ⟨hawake, hsame | ⟨hloop, -, -, -, rfl⟩⟩ := loopStep_sleeping h hi hs
    · refine hs.frame (by rw [hsame]) (fun _ hm => ?_) (fun k hk _ => hdrains ▸ hk)
        (fun hc _ => hcontrol.trans hc)
      rw [hsame] at hm
      exact absurd hm hawake
    · exact ⟨List.nodup_cons.mpr ⟨hawake, hs.nodup⟩, fun _ => hloop,
        fun k hm => hs.drain k (by simpa using hm), fun hm => hs.shutdown (by simpa using hm)⟩
  | thread w a =>
    have he := threadEffect h hi.unfailing
    obtain ⟨hdrains, hcontrol⟩ := he.drains
    obtain ⟨hloop, hsame⟩ := he.sleeping
    refine hs.frame ?_ (fun hl _ => hloop.trans hl) (fun k hk _ => hdrains ▸ hk)
      (fun hc _ => hcontrol.trans hc)
    obtain hsame | hempty := hsame
    · rw [hsame]
    · rw [hempty]
      exact List.nil_sublist _
  | lifecycle a => exact (lifecycleMove h).asleep hi hs
  | wake waiter =>
    obtain rfl := step_wake h
    exact hs.frame List.erase_sublist (fun hl _ => hl) (fun _ hk _ => hk) (fun hc _ => hc)

/-! ## Who will wake them -/

/-- Some idle callback has still to wake everybody. -/
def NotifyComing (s : State) : Prop := Coming Thread.inCallback s

theorem WakeComing.notifyComing (h : WakeComing s) : NotifyComing s :=
  Coming.mono h (fun thread ht => by cases thread <;> first | rfl | cases ht)

/-- Whoever sleeps is going to be woken, or has nothing to do. -/
structure Watched (s : State) : Prop where
  stopping : .loop ∈ s.sleeping → s.stopping = true → s.control = .notifying
  loop : .loop ∈ s.sleeping → s.control = .notifying ∨ NotifyComing s ∨
    s.queue = [] ∧ Holder.emptying s.holder = false
  shutdown : .shutdown ∈ s.sleeping →
    s.queue ≠ [] ∨ NotifyComing s ∨ Holder.emptying s.holder = true

theorem watched_initial (workerIds : List WorkerID) (capacity : ResourceSet) (callback : Bool) :
    Watched (.initial workerIds capacity callback) where
  stopping h := by cases h
  loop h := by cases h
  shutdown h := by cases h

/-- `Shutdown` is not in `Drain`, so nobody but the scheduler thread sleeps. -/
theorem Asleep.only_loop (hs : Asleep s) (hd : Undrained s) (hc : s.control ≠ .waitingDrain)
    {waiter : Waiter} (hm : waiter ∈ s.sleeping) : waiter = .loop := by
  cases waiter with
  | loop => rfl
  | drain k =>
    have := hs.drain k hm
    rw [hd k] at this
    cases this
  | shutdown => exact absurd (hs.shutdown hm) hc

/-- A `notify_one` that finds a single thread asleep wakes it. -/
theorem not_mem_of_only {sleeping sleeping' : List Waiter} {woken : Option Waiter}
    {waiter : Waiter} (h : notifyOne sleeping woken = some sleeping') (hn : sleeping.Nodup)
    (honly : ∀ other ∈ sleeping, other = waiter) : waiter ∉ sleeping' := by
  intro hm
  have hmem := (notifyOne_sublist h).subset hm
  cases woken with
  | none =>
    simp only [notifyOne] at h
    split at h
    · rename_i hempty
      rw [hempty] at hmem
      cases hmem
    · cases h
  | some other =>
    have hother : other ∈ sleeping := by
      by_contra hno
      simp [notifyOne, hno] at h
    obtain rfl := honly other hother
    exact not_mem_of_notifyOne h hn hm

/-- Nobody falls asleep, and no reason to sleep goes away. -/
theorem Watched.frame (h : Watched s) (hsub : u.sleeping.Sublist s.sleeping)
    (hstopping : u.stopping = s.stopping) (hcontrol : u.control = s.control)
    (hcoming : NotifyComing s → NotifyComing u)
    (hloop : s.queue = [] → Holder.emptying s.holder = false →
      u.queue = [] ∧ Holder.emptying u.holder = false)
    (hshutdown : s.queue ≠ [] ∨ Holder.emptying s.holder = true →
      u.queue ≠ [] ∨ NotifyComing u ∨ Holder.emptying u.holder = true) : Watched u where
  stopping hm hstop := by
    rw [hstopping] at hstop
    rw [hcontrol]
    exact h.stopping (hsub.subset hm) hstop
  loop hm := by
    rw [hcontrol]
    exact (h.loop (hsub.subset hm)).imp_right (.imp hcoming (fun hq => hloop hq.1 hq.2))
  shutdown hm := by
    obtain hq | hc | he := h.shutdown (hsub.subset hm)
    · exact hshutdown (.inl hq)
    · exact .inr (.inl (hcoming hc))
    · exact hshutdown (.inr he)

/-- No reason changes. -/
theorem Watched.same (h : Watched s) (hsub : u.sleeping.Sublist s.sleeping)
    (hstopping : u.stopping = s.stopping) (hcontrol : u.control = s.control)
    (hcoming : NotifyComing s → NotifyComing u) (hqueue : u.queue = s.queue)
    (hholder : Holder.emptying u.holder = Holder.emptying s.holder) : Watched u := by
  refine h.frame hsub hstopping hcontrol hcoming (fun hq he => ?_) (fun hreason => ?_)
  · rw [hqueue, hholder]
    exact ⟨hq, he⟩
  · rw [hqueue, hholder]
    exact hreason.imp_right .inr

theorem callStep_watched {a : CallAction} (h : callStep s a = some u) (hr : Ready s)
    (hs : Asleep s) (hd : Undrained s) (hpublic : publicApi (.call a) = true) (hw : Watched s) :
    Watched u := by
  have hcoming : NotifyComing s → NotifyComing u := (callFrame h).coming
  cases callMove h with
  | @push k t woken sleeping hholder hwoken =>
    -- a `Submit` is inside, so `Shutdown` is not
    have hoff : s.control = .off := by
      by_contra hon
      have hlife := hr.submitting.inside (k, .marked t) (by rw [hholder]; rfl)
      rw [(hr.closing.closed hon).2] at hlife
      cases hlife
    have honly : ∀ other ∈ s.sleeping, other = .loop :=
      fun other hm => hs.only_loop hd (by rw [hoff]; simp) hm
    have hawake : .loop ∉ sleeping := not_mem_of_only hwoken hs.nodup honly
    refine ⟨fun hm => absurd hm hawake, fun hm => absurd hm hawake, fun hm => ?_⟩
    cases honly _ ((notifyOne_sublist hwoken).subset hm)
  | @notify k completion woken sleeping hholder hwoken =>
    have hreason : .loop ∈ s.sleeping → s.control = .notifying ∨ NotifyComing s := by
      intro hm
      obtain hn | hc | ⟨-, he⟩ := hw.loop hm
      · exact .inl hn
      · exact .inr hc
      · rw [hholder] at he
        cases he
    have hsub := notifyOne_sublist hwoken
    refine ⟨fun hm hstop => hw.stopping (hsub.subset hm) hstop, fun hm => ?_, fun hm => ?_⟩
    · exact (hreason (hsub.subset hm)).imp_right (fun hc => .inl (hcoming hc))
    · -- the scheduler thread was asleep as well, or `Shutdown` is the one that is woken
      have hdraining := hs.shutdown (hsub.subset hm)
      by_cases hloop : .loop ∈ s.sleeping
      · obtain hn | hc := hreason hloop
        · rw [hdraining] at hn
          cases hn
        · exact .inr (.inl (hcoming hc))
      · refine absurd hm (not_mem_of_only hwoken hs.nodup (fun other ho => ?_))
        cases other with
        | loop => exact absurd ho hloop
        | drain k =>
          have := hs.drain k ho
          rw [hd k] at this
          cases this
        | shutdown => rfl
  | @remove k t hholder hmem =>
    refine hw.frame (.refl _) rfl rfl hcoming (fun hq => ?_) (fun _ => .inr (.inr rfl))
    rw [hq] at hmem
    cases hmem
  | @cancel k t queued tm completion hholder =>
    refine hw.same (.refl _) rfl rfl hcoming rfl ?_
    rw [hholder]
    cases queued <;> rfl
  | @refuseCancel k t queued tm status hholder hno =>
    refine hw.same (.refl _) rfl rfl hcoming rfl ?_
    rw [hholder]
    cases queued with
    | false => rfl
    | true =>
      rw [hr.inv.cancel_ok hholder] at hno
      cases hno
  | drainRefused => cases hpublic
  | drained ha hfree hdrained hawake | drainSleeps ha hfree hdrained hawake =>
    obtain rfl | rfl := ha
    · cases hpublic
    · simp only [callStep, hfree, hd _] at h
      cases h
  | refuseChecks | passChecks | refuseRegister | register | refuseEnqueue | notFound =>
    exact hw.same (.refl _) rfl rfl hcoming rfl rfl
  | enterEnqueue _ hholder | refuseMark _ _ hholder | markQueued _ hholder | beginRemove hholder
  | beginCancel hholder | refuseRemove _ hholder | cancelled hholder =>
    exact hw.same (.refl _) rfl rfl hcoming rfl (by rw [hholder]; rfl)

theorem loopStep_watched {a : LoopAction} (h : loopStep s a = some u) (hi : Inv s)
    (hs : Asleep s) (hp : Prompted s) (hw : Watched s) : Watched u := by
  have he := loopEffect h hi.unfailing
  obtain ⟨hawake, hsame | ⟨hloop, hfree, hstopping, hwake, rfl⟩⟩ := loopStep_sleeping h hi hs
  · have hcoming : NotifyComing s → NotifyComing u := he.coming
    have hasleep : .loop ∉ u.sleeping := hsame ▸ hawake
    refine ⟨fun hm => absurd hm hasleep, fun hm => absurd hm hasleep, fun hm => ?_⟩
    rw [hsame] at hm
    have hreason := (hw.shutdown hm).imp_right (Or.imp_left hcoming)
    generalize loopEvents s a = evs at he
    cases he with
    | rest => exact hreason
    | peek hfree => exact hreason.imp_right (.imp_right (fun he => by rw [hfree] at he; cases he))
    | spec hholder | observe _ hholder | choose hholder | skip hholder | select hholder
    | reserve hholder | acquire hholder | handler hholder | token hholder | dispatch hholder =>
      exact hreason.imp_right (.imp_right (fun he => by rw [hholder] at he; cases he))
    | giveUp hholder hphase =>
      refine hreason.imp_right (.imp_right (fun he => ?_))
      rw [hholder] at he
      obtain ⟨_, _, _, rfl⟩ | ⟨_, _, rfl⟩ := hphase <;> cases he
    | pop => exact .inr (.inr rfl)
    | mark => exact .inr (.inl (.inl (emplace_ne_empty _ _ _)))
  · refine ⟨fun _ hstop => ?_, fun _ => ?_, fun hm => hw.shutdown (by simpa using hm)⟩
    · simp only [hstopping] at hstop
      cases hstop
    · obtain hwake' | hq | hc := hp.waiting hloop hstopping
      · rw [hwake] at hwake'
        cases hwake'
      · exact .inr (.inr ⟨hq, by simp [hfree, Holder.emptying]⟩)
      · exact .inr (.inl hc.notifyComing)

theorem threadStep_watched {w : WorkerID} {a : ThreadAction} (h : threadStep s w a = some u)
    (hi : Inv s) (hw : Watched s) : Watched u := by
  have he := threadEffect h hi.unfailing
  obtain hempty | hne := eq_or_ne u.sleeping []
  · refine ⟨fun hm => ?_, fun hm => ?_, fun hm => ?_⟩ <;> rw [hempty] at hm <;> cases hm
  · have hcoming : NotifyComing s → NotifyComing u :=
      fun hc => (he.notifyComing hc).resolve_right hne
    generalize threadEvents s w a = evs at he
    cases he with
    | announce => exact absurd rfl hne
    | take | leave | markRunning | invoke | leaveHandler | complete | reported | becomeIdle
    | erase | eraseNone | release | wake => exact hw.same (.refl _) rfl rfl hcoming rfl rfl

/-- `Start` or `Shutdown` moves on, and the threads that sleep are not concerned. -/
theorem Watched.advance (h : Watched s) (hsub : u.sleeping.Sublist s.sleeping)
    (hcoming : NotifyComing s → NotifyComing u) (hqueue : u.queue = s.queue)
    (hholder : u.holder = s.holder)
    (hloop : .loop ∈ u.sleeping → u.stopping = s.stopping ∧ s.control ≠ .notifying) :
    Watched u where
  stopping hm hstop := by
    obtain ⟨hstopping, hne⟩ := hloop hm
    rw [hstopping] at hstop
    exact absurd (h.stopping (hsub.subset hm) hstop) hne
  loop hm := by
    rw [hqueue, hholder]
    exact .inr (((h.loop (hsub.subset hm)).resolve_left (hloop hm).2).imp_left hcoming)
  shutdown hm := by
    rw [hqueue, hholder]
    exact (h.shutdown (hsub.subset hm)).imp_right (Or.imp_left hcoming)

theorem lifecycleStep_watched {a : LifecycleAction} (h : lifecycleStep s a = some u)
    (hi : Inv s) (hs : Asleep s) (hd : Undrained s) (hw : Watched s) : Watched u := by
  have hcoming : NotifyComing s → NotifyComing u :=
    (lifecycleEffect h hi.stage).coming hi.slots rfl rfl
  cases lifecycleMove h with
  | ignored => exact hw
  | startScheduler hlife hfree hdown =>
    have hawake : .loop ∉ s.sleeping := by
      intro hm
      have := hi.stage.loop_started (by rw [hs.loop hm]; rfl)
      rw [hdown] at this
      cases this
    exact hw.advance (.refl _) hcoming rfl rfl (fun hm => absurd hm hawake)
  | drainSleeps hcontrol hfree hdrained =>
    have hne : s.control ≠ .notifying := by
      obtain hc | ⟨hc, -⟩ := hcontrol <;> rw [hc] <;> simp
    refine ⟨fun hm hstop => ?_, fun hm => ?_, fun _ => ?_⟩
    · exact absurd (hw.stopping (by simpa using hm) hstop) hne
    · exact .inr (((hw.loop (by simpa using hm)).resolve_left hne).imp_left hcoming)
    · simp only [State.drained, Bool.and_eq_false_iff, List.isEmpty_eq_false_iff,
        decide_eq_false_iff_not] at hdrained
      exact hdrained.imp_right (fun hrun => .inl (.inl hrun))
  | stop hcontrol =>
    refine ⟨fun _ _ => rfl, fun _ => .inl rfl, fun hm => ?_⟩
    exact (hw.shutdown hm).imp_right (Or.imp_left hcoming)
  | @notify woken sleeping hcontrol hwoken =>
    have hawake : .loop ∉ sleeping := not_mem_of_only hwoken hs.nodup
      (fun other hm => hs.only_loop hd (by rw [hcontrol]; simp) hm)
    exact hw.advance (notifyOne_sublist hwoken) hcoming rfl rfl (fun hm => absurd hm hawake)
  | drained hcontrol =>
    refine hw.advance (.refl _) hcoming rfl rfl (fun _ => ⟨rfl, ?_⟩)
    obtain hc | ⟨hc, -⟩ := hcontrol <;> rw [hc] <;> simp
  | startBegin _ _ _ hoff | shutdownBegin _ hoff =>
    exact hw.advance (.refl _) hcoming rfl rfl (fun _ => ⟨rfl, by rw [hoff]; simp⟩)
  | startPool hlife | keepScheduler hlife | «open» hlife =>
    exact hw.advance (.refl _) hcoming rfl rfl
      (fun _ => ⟨rfl, by rw [hi.stage.control_off hlife rfl]; simp⟩)
  | drainRefused hcontrol | notStarted hcontrol | join hcontrol | stopped hcontrol
  | closePool hcontrol | poolDown hcontrol | stopWorker hcontrol | skipWorker hcontrol
  | allStopped hcontrol | joinWorker hcontrol | resetWorker hcontrol | publish hcontrol =>
    exact hw.advance (.refl _) hcoming rfl rfl (fun _ => ⟨rfl, by rw [hcontrol]; simp⟩)

theorem step_watched {a : Action} (h : step s a = some u) (hr : Ready s) (hs : Asleep s)
    (hd : Undrained s) (hp : Prompted s) (hpublic : publicApi a = true) (hw : Watched s) :
    Watched u := by
  cases a with
  | call a => exact callStep_watched h hr hs hd hpublic hw
  | loop a => exact loopStep_watched h hr.inv hs hp hw
  | thread w a => exact threadStep_watched h hr.inv hw
  | lifecycle a => exact lifecycleStep_watched h hr.inv hs hd hw
  | wake waiter =>
    obtain rfl := step_wake h
    exact hw.same List.erase_sublist rfl rfl id rfl rfl

end LocalSystem

end AgentRuntime
