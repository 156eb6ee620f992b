import AgentRuntime.Local.Retained

/-!
# The lock discipline of the local runtime

Every section enters its scopes from the outside in, and on its way out it
leaves what the thread does not hold until its next section.
-/
namespace AgentRuntime

namespace LocalSystem

open Locks (Op Plays guarded leave plays_guarded plays_guarded_all plays_leave)

variable {s u : State}

/-! ## What a thread holds at the effect -/

/-- What a thread holds at the effect of a section, without the scopes around the effect. -/
def around (s : State) : Action → List Mutex
  | .call a =>
    match a with
    | .submitBegin _ _ _ | .submitRegister => [.lifecycle]
    | .enqueueBegin | .enqueueMark | .enqueuePush _ => [.scheduler, .lifecycle]
    | .cancelBegin _ _ | .cancelRemove | .cancelTask | .cancelReturn _ | .drainBegin _
    | .drainWait _ => [.scheduler]
  | .loop _ =>
    match s.holder with
    | some (.scheduling (.observing _ _ _ _)) => [.workerPool, .scheduler]
    | _ => [.scheduler]
  | .thread _ a => threadKeeps a
  | .lifecycle a =>
    match a with
    | .startBegin | .startOpen => [.lifecycle]
    | .startPool => [.workerPool, .lifecycle]
    | .startScheduler => [.scheduler, .lifecycle]
    | a => lifecycleKeeps a
  | .wake _ => []

/-- The scopes around the effect are entered from outside. -/
theorem nodup_around (s : State) (a : Action) :
    ((actionScopes s a).reverse ++ around s a).Nodup := by
  cases a with
  | call a => cases a <;> simp [actionScopes, around, callScopes]
  | loop a =>
    simp only [actionScopes, loopScopes, around]
    cases hholder : s.holder with
    | none => simp
    | some holder =>
      cases holder with
      | scheduling phase =>
        cases phase with
        | observing t spec rest idle =>
          cases rest with
          | nil => simp [phaseScopes]
          | cons w rest =>
            simp only [phaseScopes]
            split <;> simp
        | selecting t spec rest => cases rest <;> simp [phaseScopes]
        | reserving | dispatching | undoReserve =>
          simp only [phaseScopes, workerScopes]
          split <;> simp
        | fetchingSpec | acquiring | fetchingHandler | fetchingToken | popping | marking
        | undoRelease => simp [phaseScopes]
      | enqueueMark | enqueuePush | cancelRemove | cancelTask | cancelReport => simp
  | thread w a => cases a <;> simp [actionScopes, around, threadScopes, threadKeeps]
  | lifecycle a =>
    cases a with
    | shutdownWorker | shutdownReset =>
      simp only [actionScopes, around, lifecycleScopes]
      split <;> simp [lifecycleKeeps]
    | startBegin | startPool | startScheduler | startOpen | shutdownBegin | shutdownDrain
    | shutdownDrained | shutdownStop | shutdownNotify | shutdownJoin | shutdownStopped
    | shutdownPool | shutdownJoinWorker | shutdownPublish =>
      simp [actionScopes, around, lifecycleScopes, lifecycleKeeps]
  | wake => simp [actionScopes, around]

/-- The caller of a section of `Submit` is the call inside. -/
theorem submitting_of_agent {k : Nat} {c : Course} (hinside : s.submitting? = some (k, c))
    {x : Agent} (h : (s.submitting?.map (fun inside => Call.submit inside.1)).map Call.agent =
      some x) : x = .submit k := by
  rw [hinside] at h
  cases h
  rfl

theorem around_call {a : CallAction} {x : Agent} (h : callStep s a = some u) (hs : Submitting s)
    (hx : actor s (.call a) = some x) :
    (callKeeps a).reverse ++ retained s x = around s (.call a) := by
  cases a with
  | submitBegin k spec handler =>
    simp only [callStep] at h
    split at h
    · rename_i hlife _
      cases hx
      show [Mutex.lifecycle] ++ retained s (.submit k) = [.lifecycle]
      rw [retained_submit_outside hlife, List.append_nil]
    · cases h
  | submitRegister =>
    simp only [callStep] at h
    split at h
    · rename_i k spec handler hlife
      have hinside := submitting_registering hlife
      obtain rfl := submitting_of_agent hinside hx
      rw [retained_submit hinside, hlife]
      rfl
    · cases h
  | enqueueBegin =>
    simp only [callStep] at h
    split at h
    · rename_i k t hlife _
      have hinside := submitting_enqueuing hlife
      obtain rfl := submitting_of_agent hinside hx
      rw [retained_submit hinside, hlife]
      rfl
    · cases h
  | enqueueMark =>
    simp only [callStep] at h
    split at h
    · rename_i k t hholder
      have hlife := hs.inside (k, .registered t) (by rw [hholder]; rfl)
      have hinside : s.submitting? = some (k, .registered t) :=
        hs.inEnqueue (by rw [hholder]; rfl)
      obtain rfl := submitting_of_agent hinside hx
      rw [retained_submit hinside, hlife]
      rfl
    · cases h
  | enqueuePush woken =>
    simp only [callStep] at h
    split at h
    · rename_i k t hholder
      have hlife := hs.inside (k, .marked t) (by rw [hholder]; rfl)
      have hinside : s.submitting? = some (k, .marked t) :=
        hs.inEnqueue (by rw [hholder]; rfl)
      obtain rfl := submitting_of_agent hinside hx
      rw [retained_submit hinside, hlife]
      rfl
    · cases h
  | cancelBegin k t =>
    simp only [callStep] at h
    split at h
    · rename_i hfree _
      cases hx
      show [Mutex.scheduler] ++ retained s (.cancel k) = [.scheduler]
      rw [retained_cancel_free hfree, List.append_nil]
    · cases h
  | cancelRemove | cancelTask | cancelReturn =>
    simp only [actor, caller, Option.map_map] at hx
    obtain ⟨k, hk, rfl⟩ := Option.map_eq_some_iff.mp hx
    exact retained_cancel hk
  | drainBegin | drainWait =>
    cases hx
    rfl

theorem around_loop {a : LoopAction} (h : loopStep s a = some u) :
    (loopKeeps a).reverse ++ retained s .loop = around s (.loop a) := by
  cases a with
  | wait | check | tryBegin =>
    simp only [loopStep] at h
    split at h
    · rename_i hfree
      simp only [loopKeeps, retained, around, hfree]
      rfl
    · cases h
  | trySpec | tryObserve | trySelect | tryReserve | tryAcquire | tryHandler | tryToken | tryPop
  | tryMark | tryDispatch | undoRelease | undoReserve =>
    simp only [loopStep] at h
    split at h
    · rename_i hholder
      simp only [loopKeeps, retained, around, hholder]
      rfl
    · cases h

theorem around_shutdown {a : LifecycleAction} (ha : a.isShutdown = true) :
    (lifecycleKeeps a).reverse = around s (.lifecycle a) := by
  cases a with
  | startBegin | startPool | startScheduler | startOpen => cases ha
  | shutdownBegin | shutdownDrain | shutdownDrained | shutdownStop | shutdownNotify
  | shutdownJoin | shutdownStopped | shutdownPool | shutdownWorker | shutdownJoinWorker
  | shutdownReset | shutdownPublish => rfl

theorem around_lifecycle {a : LifecycleAction} (h : lifecycleStep s a = some u)
    (hs : Disciplined s) :
    (lifecycleKeeps a).reverse ++ retained s .control = around s (.lifecycle a) := by
  have shutdown : a.isShutdown = true →
      (lifecycleKeeps a).reverse ++ retained s .control = around s (.lifecycle a) := fun ha => by
    simp only [retained, not_starting h ha hs, Bool.false_eq_true, if_false, List.append_nil]
    exact around_shutdown ha
  cases a with
  | startPool | startOpen =>
    simp only [lifecycleStep] at h
    split at h
    · rename_i hlife
      simp only [retained, hlife]
      rfl
    · cases h
  | startBegin | startScheduler =>
    simp only [lifecycleStep] at h
    split at h
    · rename_i hlife _
      simp only [retained, hlife]
      rfl
    · cases h
  | shutdownBegin | shutdownDrain | shutdownDrained | shutdownStop | shutdownNotify
  | shutdownJoin | shutdownStopped | shutdownPool | shutdownWorker | shutdownJoinWorker
  | shutdownReset | shutdownPublish => exact shutdown rfl

theorem around_action {a : Action} {x : Agent} (h : step s a = some u) (hs : Disciplined s)
    (hx : actor s a = some x) : (actionKeeps a).reverse ++ retained s x = around s a := by
  cases a with
  | call a => exact around_call h hs.submitting hx
  | loop a =>
    cases hx
    exact around_loop h
  | thread w a =>
    cases hx
    show (threadKeeps a).reverse ++ [] = threadKeeps a
    cases a <;> rfl
  | lifecycle a =>
    cases hx
    exact around_lifecycle h hs
  | wake => cases hx

/-! ## After the effect -/

theorem plays_canFitLocks {held : List Mutex} (hfree : .resourceManager ∉ held) (spec : TaskSpec)
    (ws : List WorkerID) : Plays held (canFitLocks s spec ws) held := by
  induction ws with
  | nil => exact .done held
  | cons w rest ih =>
    refine (plays_guarded hfree).append ?_
    split
    · exact .done held
    · exact ih

theorem plays_checkLocks (spec : TaskSpec) (handler : TaskHandler) :
    Plays [.lifecycle] (checkLocks s spec handler) [.lifecycle] := by
  rw [checkLocks]
  split
  · exact (plays_guarded (by simp)).append (plays_canFitLocks (by simp) spec _)
  · exact .done _

theorem plays_registerLocks {held : List Mutex} (hfree : .resourceManager ∉ held)
    (capacity : ResourceSet) (ws : List WorkerID) (rm : ResourceManager) :
    Plays held (registerLocks capacity ws rm) held := by
  induction ws generalizing rm with
  | nil => exact .done held
  | cons w rest ih =>
    refine (plays_guarded hfree).append ?_
    split
    · exact ih _
    · exact .done held

/-! ### Submit -/

theorem plays_submitReturns (v : State) (k : Nat) (status : Status) (scopes : List Mutex) :
    Plays scopes.reverse (onReturn ((v.submitReturns k status).submits.lookup k) scopes)
      (retained (v.submitReturns k status) (.submit k)) := by
  have hleave := plays_leave scopes []
  rw [onReturn, if_pos (by simp [State.submitReturns]), retained_submit_outside rfl]
  rwa [List.append_nil] at hleave

theorem plays_submitStays {k : Nat} {c : Course} {held : List Mutex} (hs : Submitting u)
    (hinside : u.submitting? = some (k, c)) (hheld : retained u (.submit k) = held)
    (scopes : List Mutex) :
    Plays held (onReturn (u.submits.lookup k) scopes) (retained u (.submit k)) := by
  rw [hs.unreturned k c hinside, hheld]
  exact .done _

theorem plays_submitBegin {k : Nat} {spec : TaskSpec} {handler : TaskHandler}
    (hu : Submitting (submitBegin s k spec handler)) :
    Plays [.lifecycle]
      (submitReturning s k (submitBegin s k spec handler) (.submitBegin k spec handler))
      (retained (submitBegin s k spec handler) (.submit k)) := by
  refine (plays_checkLocks spec handler).append ?_
  simp only [submitBegin] at hu ⊢
  split at hu
  · rename_i hchecks
    rw [if_pos hchecks]
    have hinside : { s with
        lifecycle := some (.registering k spec handler) }.submitting? =
          some (k, .checked spec) := rfl
    exact plays_submitStays hu hinside (retained_submit hinside) _
  · rename_i hchecks
    rw [if_neg hchecks]
    exact plays_submitReturns _ k _ [.lifecycle]

theorem plays_submitRegister {k : Nat} {spec : TaskSpec} {handler : TaskHandler}
    (hu : Submitting (submitRegister s k spec handler)) :
    Plays [.lifecycle] (submitReturning s k (submitRegister s k spec handler) .submitRegister)
      (retained (submitRegister s k spec handler) (.submit k)) := by
  simp only [submitRegister, submitReturning] at hu ⊢
  split at hu
  · rename_i hok
    rw [if_pos hok]
    have hinside : { s with
        taskManager := (s.taskManager.register spec handler).2
        lifecycle := some (.enqueuing k spec.id) }.submitting? =
          some (k, .registered spec.id) := rfl
    exact plays_submitStays hu hinside (retained_submit hinside) _
  · rename_i hno
    rw [if_neg hno]
    exact plays_submitReturns _ k _ [.lifecycle]

theorem plays_enqueueBegin {k : Nat} {t : TaskID} (hu : Submitting (enqueueBegin s k t)) :
    Plays [.scheduler, .lifecycle] (submitReturning s k (enqueueBegin s k t) .enqueueBegin)
      (retained (enqueueBegin s k t) (.submit k)) := by
  simp only [enqueueBegin, submitReturning] at hu ⊢
  split at hu
  · rename_i hdown
    rw [if_pos hdown]
    exact plays_submitReturns _ k _ [.lifecycle, .scheduler]
  · rename_i hup
    rw [if_neg hup]
    have hinside : { s with
        holder := some (.enqueueMark k t)
        lifecycle := some .inEnqueue }.submitting? = some (k, .registered t) := rfl
    exact plays_submitStays hu hinside (retained_submit hinside) _

theorem plays_enqueueMark {k : Nat} {t : TaskID} (hlife : s.lifecycle = some .inEnqueue)
    (hu : Submitting (enqueueMark s k t)) :
    Plays [.scheduler, .lifecycle] (submitReturning s k (enqueueMark s k t) .enqueueMark)
      (retained (enqueueMark s k t) (.submit k)) := by
  simp only [enqueueMark, submitReturning] at hu ⊢
  split at hu
  · rename_i hok
    rw [if_pos hok]
    have hinside : { s with
        taskManager := (s.taskManager.markQueued t).2
        holder := some (.enqueuePush k t) }.submitting? = some (k, .marked t) := by
      rw [State.submitting?, hlife]
      rfl
    refine plays_submitStays hu hinside ?_ _
    rw [retained_submit hinside]
    simp only [hlife]
  · rename_i hno
    rw [if_neg hno]
    exact plays_submitReturns _ k _ [.lifecycle, .scheduler]

theorem plays_submit {k : Nat} {a : CallAction} (h : callStep s a = some u) (hs : Submitting s)
    (hu : Submitting u) (hx : actor s (.call a) = some (.submit k)) :
    Plays (around s (.call a)) (submitReturning s k u a) (retained u (.submit k)) := by
  have own : ∀ {k' : Nat} {c : Course}, s.submitting? = some (k', c) →
      (s.submitting?.map (fun inside => Call.submit inside.1)).map Call.agent =
        some (.submit k) → k' = k := by
    intro k' c hinside hx
    cases submitting_of_agent hinside hx
    rfl
  cases a with
  | submitBegin k' spec handler =>
    simp only [callStep] at h
    split at h
    · cases hx
      cases h
      exact plays_submitBegin hu
    · cases h
  | submitRegister =>
    simp only [callStep] at h
    split at h
    · rename_i k' spec handler hlife
      have hinside := submitting_registering hlife
      obtain rfl := own hinside hx
      cases h
      exact plays_submitRegister hu
    · cases h
  | enqueueBegin =>
    simp only [callStep] at h
    split at h
    · rename_i k' t hlife _
      have hinside := submitting_enqueuing hlife
      obtain rfl := own hinside hx
      cases h
      exact plays_enqueueBegin hu
    · cases h
  | enqueueMark =>
    simp only [callStep] at h
    split at h
    · rename_i k' t hholder
      have hlife := hs.inside (k', .registered t) (by rw [hholder]; rfl)
      have hinside : s.submitting? = some (k', .registered t) :=
        hs.inEnqueue (by rw [hholder]; rfl)
      obtain rfl := own hinside hx
      cases h
      exact plays_enqueueMark hlife hu
    · cases h
  | enqueuePush woken =>
    simp only [callStep] at h
    split at h
    · rename_i k' t hholder
      have hinside : s.submitting? = some (k', .marked t) :=
        hs.inEnqueue (by rw [hholder]; rfl)
      obtain rfl := own hinside hx
      obtain ⟨sleeping, -, rfl⟩ := Option.map_eq_some_iff.mp h
      exact plays_submitReturns _ k' _ [.lifecycle, .scheduler]
    · cases h
  | cancelBegin | drainBegin | drainWait => cases hx
  | cancelRemove | cancelTask | cancelReturn =>
    simp only [actor, caller, Option.map_map] at hx
    obtain ⟨k', -, he⟩ := Option.map_eq_some_iff.mp hx
    cases he

/-! ### Cancel and Drain -/

theorem plays_cancel_returns {k : Nat} (hfree : u.holder = none)
    (hreturned : (u.cancels.lookup k).isSome = true) :
    Plays [.scheduler] (onReturn (u.cancels.lookup k) [.scheduler]) (retained u (.cancel k)) := by
  rw [onReturn, if_pos hreturned, retained_cancel_free hfree]
  exact plays_leave [Mutex.scheduler] []

theorem plays_cancel_stays {k : Nat} (hk : Holder.cancel? u.holder = some k)
    (hnew : u.cancels.lookup k = none) :
    Plays [.scheduler] (onReturn (u.cancels.lookup k) [.scheduler]) (retained u (.cancel k)) := by
  rw [retained_cancel hk, hnew]
  exact .done _

theorem plays_cancel {k : Nat} {a : CallAction} (h : callStep s a = some u)
    (hs : ∀ k, Holder.cancel? s.holder = some k → s.cancels.lookup k = none)
    (hx : actor s (.call a) = some (.cancel k)) :
    Plays (around s (.call a)) (onReturn (u.cancels.lookup k) [.scheduler])
      (retained u (.cancel k)) := by
  have holder : ((Holder.cancel? s.holder).map Call.cancel).map Call.agent = some (.cancel k) →
      Holder.cancel? s.holder = some k := by
    intro hx
    simp only [Option.map_map] at hx
    obtain ⟨k', hk', he⟩ := Option.map_eq_some_iff.mp hx
    cases he
    exact hk'
  have returns : ∀ {v : State} {status : Status},
      Plays [.scheduler] (onReturn ((v.cancelReturns k status).cancels.lookup k) [.scheduler])
        (retained (v.cancelReturns k status) (.cancel k)) :=
    plays_cancel_returns rfl (by simp [State.cancelReturns])
  cases a with
  | cancelBegin k' t =>
    cases hx
    have hnew : s.cancels.lookup k = none := by
      simp only [callStep] at h
      split at h
      · assumption
      · cases h
    cases callMove h with
    | notFound status hfree => exact plays_cancel_returns hfree (by simp)
    | beginRemove => exact plays_cancel_stays rfl hnew
    | beginCancel => exact plays_cancel_stays rfl hnew
    | drained ha | drainSleeps ha => obtain ha | ha := ha <;> cases ha
  | cancelRemove =>
    have hown := holder hx
    have hnew := hs k hown
    cases callMove h with
    | refuseRemove status hholder =>
      rw [hholder] at hown
      cases hown
      exact returns
    | remove hholder =>
      rw [hholder] at hown
      cases hown
      exact plays_cancel_stays rfl hnew
    | drained ha | drainSleeps ha => obtain ha | ha := ha <;> cases ha
  | cancelTask =>
    have hown := holder hx
    have hnew := hs k hown
    cases callMove h with
    | refuseCancel tm status hholder =>
      rw [hholder] at hown
      cases hown
      exact returns
    | cancel tm completion hholder =>
      rw [hholder] at hown
      cases hown
      exact plays_cancel_stays rfl hnew
    | drained ha | drainSleeps ha => obtain ha | ha := ha <;> cases ha
  | cancelReturn =>
    have hown := holder hx
    cases callMove h with
    | notify hholder | cancelled hholder =>
      rw [hholder] at hown
      cases hown
      exact returns
    | drained ha | drainSleeps ha => obtain ha | ha := ha <;> cases ha
  | submitBegin | drainBegin | drainWait => cases hx
  | submitRegister | enqueueBegin | enqueueMark | enqueuePush =>
    simp only [actor, caller, Option.map_map] at hx
    obtain ⟨k', -, he⟩ := Option.map_eq_some_iff.mp hx
    cases he

theorem plays_queue_unlock : Plays [Mutex.scheduler]
    (guarded .taskQueue ++ [.unlock .scheduler]) [] :=
  (plays_guarded (by simp)).append (.unlock (.done []))

theorem plays_drain {k : Nat} {a : CallAction} (hx : actor s (.call a) = some (.drain k)) :
    Plays (around s (.call a)) (drainReturning s a) [] := by
  cases a with
  | drainBegin =>
    simp only [drainReturning]
    split
    · exact plays_queue_unlock
    · exact .unlock (.done [])
  | drainWait => exact plays_queue_unlock
  | submitBegin | cancelBegin => cases hx
  | submitRegister | enqueueBegin | enqueueMark | enqueuePush | cancelRemove | cancelTask
  | cancelReturn =>
    simp only [actor, caller, Option.map_map] at hx
    obtain ⟨k', -, he⟩ := Option.map_eq_some_iff.mp hx
    cases he

/-! ### The scheduler thread -/

theorem plays_tryReturns (v : State) (dispatched : Bool) :
    Plays [.scheduler] (tryReturning (v.tryReturns dispatched))
      (retained (v.tryReturns dispatched) .loop) := .unlock (.done [])

/-- `TryScheduleOne` goes on outside `IdleWorkers`. -/
theorem plays_tryStays {phase : TryPhase} (hholder : u.holder = some (.scheduling phase))
    (hphase : phase.isObserving = false) :
    Plays [.scheduler] (tryReturning u) (retained u .loop) := by
  have hheld : retained u .loop = [.scheduler] := by
    cases phase with
    | observing => cases hphase
    | fetchingSpec | selecting | reserving | acquiring | fetchingHandler | fetchingToken | popping
    | marking | dispatching | undoRelease | undoReserve => simp only [retained, hholder]
  rw [tryReturning, hholder, hheld]
  exact .done _

/-- A section of `TryScheduleOne` after `IdleWorkers`. -/
theorem plays_try {a : LoopAction} (h : LoopMove s a u) (hspec : a ≠ .trySpec)
    (hobserve : a ≠ .tryObserve) (hholder : s.holder ≠ none) :
    Plays [.scheduler] (tryReturning u) (retained u .loop) := by
  cases h with
  | rest _ _ _ hfree => exact absurd hfree hholder
  | goesOn _ _ _ _ _ _ _ hphase =>
    obtain hphase | hphase | hphase := hphase
    · exact plays_tryStays rfl hphase
    · exact absurd hphase hspec
    · exact absurd hphase hobserve
  | returns => exact plays_tryReturns _ _

theorem plays_tryBegin : Plays [.scheduler]
    ((if s.stopping = true then [] else guarded .taskQueue) ++ tryReturning (tryBegin s))
    (retained (tryBegin s) .loop) := by
  simp only [tryBegin]
  split
  · exact plays_tryReturns s false
  · refine (plays_guarded (by simp)).append ?_
    split
    · exact plays_tryReturns s false
    · exact plays_tryStays rfl rfl

theorem plays_tryObserve {t : TaskID} {spec : TaskSpec} {rest idle : List WorkerID} :
    Plays [.workerPool, .scheduler] (loopReturning s (tryObserve s t spec rest idle) .tryObserve)
      (retained (tryObserve s t spec rest idle) .loop) := by
  cases rest with
  | nil =>
    simp only [tryObserve]
    split
    · exact .unlock (plays_tryReturns s false)
    · exact .unlock (plays_tryStays rfl rfl)
  | cons w rest =>
    simp only [tryObserve]
    split <;> exact .done _

theorem loopStep_wait (h : loopStep s .wait = some u) : s.holder = none ∧ u.holder = none := by
  simp only [loopStep] at h
  split at h
  · rename_i hfree
    split at h
    · cases h
    · cases h
      refine ⟨hfree, ?_⟩
      simp only [loopWait]
      split
      · exact hfree
      · split <;> exact hfree
  · cases h

theorem loopStep_check (h : loopStep s .check = some u) : s.holder = none ∧ u.holder = none := by
  simp only [loopStep] at h
  split at h
  · rename_i hfree
    cases h
    exact ⟨hfree, hfree⟩
  · cases h

theorem plays_loop {a : LoopAction} (h : loopStep s a = some u) :
    Plays (around s (.loop a)) (loopReturning s u a) (retained u .loop) := by
  have hmove := loopMove h
  cases a with
  | wait =>
    obtain ⟨hfree, hstill⟩ := loopStep_wait h
    simp only [around, hfree, retained, hstill]
    exact .unlock (.done [])
  | check =>
    obtain ⟨hfree, hstill⟩ := loopStep_check h
    simp only [around, hfree, retained, hstill]
    exact .unlock (.done [])
  | tryBegin =>
    simp only [loopStep] at h
    split at h
    · rename_i hfree
      cases h
      simp only [around, hfree]
      exact plays_tryBegin
    · cases h
  | trySpec =>
    simp only [loopStep] at h
    split at h
    · rename_i t hholder
      cases h
      simp only [around, hholder, trySpec]
      split
      · exact .unlock (.done [])
      · exact .lock (by simp) (.done _)
    · cases h
  | tryObserve =>
    simp only [loopStep] at h
    split at h
    · rename_i hholder
      cases h
      simp only [around, hholder]
      exact plays_tryObserve
    · cases h
  | trySelect | tryReserve | tryAcquire | tryHandler | tryToken | tryPop | tryMark | tryDispatch
  | undoRelease | undoReserve =>
    simp only [loopStep] at h
    split at h
    · rename_i hholder
      have htry := plays_try hmove (by simp) (by simp) (by simp [hholder])
      simp only [around, hholder]
      exact htry
    · cases h

/-! ### Start and Shutdown -/

theorem plays_startReturns (hlife : u.lifecycle = none) :
    Plays [.lifecycle] (startReturning u) (retained u .control) := by
  simp only [startReturning, retained, hlife]
  exact .unlock (.done [])

theorem plays_startStays (hlife : LifecycleHolder.isStart u.lifecycle = true) :
    Plays [.lifecycle] (startReturning u) (retained u .control) := by
  rw [startReturning, retained, if_pos hlife, if_neg]
  · exact .done _
  · cases hlifecycle : u.lifecycle with
    | none =>
      rw [hlifecycle] at hlife
      cases hlife
    | some => simp

/-- `Shutdown` holds nothing from one section to the next. -/
theorem plays_shutdown {a : LifecycleAction} (ha : a.isShutdown = true) :
    Plays (lifecycleKeeps a).reverse (lifecycleReturning s u a) [] := by
  cases a with
  | startBegin | startPool | startScheduler | startOpen => cases ha
  | shutdownBegin | shutdownPublish | shutdownStop | shutdownStopped => exact .unlock (.done [])
  | shutdownDrain =>
    simp only [lifecycleReturning]
    split
    · exact plays_queue_unlock
    · exact .unlock (.done [])
  | shutdownDrained => exact plays_queue_unlock
  | shutdownNotify | shutdownJoin | shutdownPool | shutdownWorker | shutdownJoinWorker
  | shutdownReset => exact .done []

theorem plays_startBegin (hlife : s.lifecycle = none) :
    Plays [.lifecycle] (lifecycleReturning s (startBegin s) .startBegin)
      (retained (startBegin s) .control) := by
  have hregister : Plays [.lifecycle]
      (if s.runtimeStarted = true ∨ s.resourcesInitialized = true then []
      else guarded .workerPool ++
        registerLocks s.resourcesPerWorker s.pool.workerIds s.resourceManager) [.lifecycle] := by
    split
    · exact .done _
    · exact (plays_guarded (by simp)).append (plays_registerLocks (by simp) _ _ _)
  refine hregister.append ?_
  simp only [startBegin]
  split
  · exact plays_startReturns hlife
  · split
    · exact plays_startStays rfl
    · split
      · exact plays_startStays rfl
      · exact plays_startReturns hlife

/-- `WorkerPool::Start`, one worker after the other. -/
theorem plays_startPool : Plays [.workerPool, .lifecycle]
    (lifecycleReturning s (startPool s) .startPool) (retained (startPool s) .control) := by
  have hworkers : Plays [.workerPool, .lifecycle]
      (if s.pool.started = true then []
      else (s.pool.workerIds.map Mutex.worker).flatMap guarded) [.workerPool, .lifecycle] := by
    split
    · exact .done _
    · refine plays_guarded_all fun m hm => ?_
      obtain ⟨w, -, rfl⟩ := List.mem_map.mp hm
      simp
  refine hworkers.append (.unlock ?_)
  simp only [startPool]
  split
  · exact plays_startStays rfl
  · exact plays_startReturns rfl

theorem retained_shutdown {a : LifecycleAction} (h : lifecycleStep s a = some u)
    (ha : a.isShutdown = true) (hs : Disciplined s) : retained u .control = [] := by
  obtain ⟨-, hlife, -, -⟩ := shutdown_kept h ha
  simp only [retained, hlife, not_starting h ha hs]
  rfl

theorem plays_lifecycle {a : LifecycleAction} (h : lifecycleStep s a = some u)
    (hs : Disciplined s) :
    Plays (around s (.lifecycle a)) (lifecycleReturning s u a) (retained u .control) := by
  have shutdown : a.isShutdown = true →
      Plays (lifecycleKeeps a).reverse (lifecycleReturning s u a) (retained u .control) := by
    intro ha
    rw [retained_shutdown h ha hs]
    exact plays_shutdown ha
  cases a with
  | startBegin =>
    simp only [lifecycleStep] at h
    split at h
    · rename_i hlife _
      cases h
      exact plays_startBegin hlife
    · cases h
  | startPool =>
    simp only [lifecycleStep] at h
    split at h
    · cases h
      exact plays_startPool
    · cases h
  | startScheduler =>
    simp only [lifecycleStep] at h
    split at h
    · cases h
      have hheld : retained (startScheduler s) .control = [.lifecycle] := by
        simp only [startScheduler]
        split <;> rfl
      rw [hheld]
      exact .unlock (.done _)
    · cases h
  | startOpen =>
    simp only [lifecycleStep] at h
    split at h
    · cases h
      exact plays_startReturns rfl
    · cases h
  | shutdownBegin | shutdownDrain | shutdownDrained | shutdownStop | shutdownNotify
  | shutdownJoin | shutdownStopped | shutdownPool | shutdownWorker | shutdownJoinWorker
  | shutdownReset | shutdownPublish => exact shutdown rfl

/-! ## The discipline -/

theorem actor_call {a : CallAction} {x : Agent} (hx : actor s (.call a) = some x) :
    (∃ k, x = .submit k) ∨ (∃ k, x = .cancel k) ∨ ∃ k, x = .drain k := by
  cases a with
  | submitBegin k => exact .inl ⟨k, (Option.some.inj hx).symm⟩
  | cancelBegin k => exact .inr (.inl ⟨k, (Option.some.inj hx).symm⟩)
  | drainBegin k | drainWait k => exact .inr (.inr ⟨k, (Option.some.inj hx).symm⟩)
  | submitRegister | enqueueBegin | enqueueMark | enqueuePush =>
    simp only [actor, caller, Option.map_map] at hx
    obtain ⟨inside, -, rfl⟩ := Option.map_eq_some_iff.mp hx
    exact .inl ⟨inside.1, rfl⟩
  | cancelRemove | cancelTask | cancelReturn =>
    simp only [actor, caller, Option.map_map] at hx
    obtain ⟨k, -, rfl⟩ := Option.map_eq_some_iff.mp hx
    exact .inr (.inl ⟨k, rfl⟩)

theorem plays_action {a : Action} {x : Agent} (h : step s a = some u) (hs : Disciplined s)
    (hx : actor s a = some x) : Plays (around s a) (actionReturning s x a u) (retained u x) := by
  cases a with
  | call a =>
    obtain ⟨k, rfl⟩ | ⟨k, rfl⟩ | ⟨k, rfl⟩ := actor_call hx
    · exact plays_submit h hs.submitting ((step_course h hs.submitting).1) hx
    · exact plays_cancel h hs.unanswered hx
    · exact plays_drain hx
  | loop a =>
    cases hx
    exact plays_loop h
  | thread w a =>
    cases hx
    cases a with
    | idleErase | idleWake => exact .unlock (.done [])
    | take | markRunning | invoke | leaveHandler | complete | reported | becomeIdle
    | idleRelease | idleNotify => exact .done []
  | lifecycle a =>
    cases hx
    exact plays_lifecycle h hs
  | wake => cases hx

/-- Every thread keeps to it, so between two sections it holds what `retained` says. -/
theorem discipline : Locks.Discipline locking (fun s => Disciplined s.runtime)
    (fun s => retained s.runtime) where
  invariant _ _ _ hs h := moveStep_disciplined h hs
  nodup s a x hs hx ha := by
    obtain ⟨u, hu⟩ := Option.isSome_iff_exists.mp ha
    cases a with
    | step a =>
      obtain ⟨v, hv, -⟩ := Option.map_eq_some_iff.mp hu
      have hnodup := nodup_around s.runtime a
      rw [← around_action hv hs hx] at hnodup
      exact hnodup
    | shutdown k a =>
      cases hx
      simp only [moveStep, locking] at hu
      split at hu
      · rename_i hshutdown
        have hnodup := nodup_around (s.facing k) (.lifecycle a)
        rw [← around_shutdown hshutdown] at hnodup
        simpa only [locking, scopes, keeps, retained, actionScopes, List.append_nil] using hnodup
      · cases hu
    | getStatus =>
      cases hx
      simp [locking, scopes, keeps, retained]
  passes s a x _ hx _ := by
    cases a with
    | step a =>
      cases a with
      | thread w a =>
        cases hx
        simp [retained]
      | call | loop | lifecycle | wake => simp [locking, passes]
    | shutdown | getStatus => simp [locking, passes]
  returning s a x u hs hx h := by
    cases a with
    | step a =>
      obtain ⟨v, hv, rfl⟩ := Option.map_eq_some_iff.mp h
      have hplays := plays_action hv hs hx
      rw [← around_action hv hs hx] at hplays
      exact hplays
    | shutdown k a =>
      cases hx
      simp only [moveStep, locking] at h
      split at h
      · rename_i hshutdown
        simpa only [locking, keeps, returning, retained, List.append_nil] using
          plays_shutdown hshutdown
      · cases h
    | getStatus =>
      cases hx
      exact .done []
  others _ _ _ _ hs h hx := retained_move h hs hx

end LocalSystem

end AgentRuntime
