import AgentRuntime.Local.Acceptance
import AgentRuntime.Local.Drain
import AgentRuntime.Local.Wakeups

/-!
# The scheduler is prompted again

`TryScheduleOne` gives up when no worker can take the task at the head of the
queue, and nothing is left behind that says so. Whoever keeps a worker from
taking the task has then still to ask the scheduler to look again.
-/
namespace AgentRuntime

namespace Thread

/-- Between the first section of the idle callback and the one that asks for a wakeup. -/
def wakePending : Thread → Bool
  | .releasing _ | .waking => true
  | _ => false

end Thread

namespace LocalSystem

/-- Something is dispatched, or some worker is at a place of its idle callback. -/
def Coming (place : Thread → Bool) (s : State) : Prop :=
  s.running ≠ ∅ ∨ ∃ w, place (s.worker w).thread = true

/-- Some idle callback has still to ask the scheduler to look at the queue. -/
def WakeComing (s : State) : Prop := Coming Thread.wakePending s

variable {s u : State} {evs : List Event} {place place' : Thread → Bool}

theorem Coming.mono (h : Coming place s) (hle : ∀ thread, place thread = true → place' thread = true) :
    Coming place' s := by
  obtain hrun | ⟨w, hw⟩ := h
  · exact .inl hrun
  · exact .inr ⟨w, hle _ hw⟩

theorem Coming.frame (h : Coming place s) (hrun : s.running ≠ ∅ → u.running ≠ ∅)
    (hthread : ∀ w, place (s.worker w).thread = true → place (u.worker w).thread = true) :
    Coming place u := by
  obtain hrunning | ⟨w, hw⟩ := h
  · exact .inl (hrun hrunning)
  · exact .inr ⟨w, hthread w hw⟩

/-- One worker moves on, and it does not leave the place. -/
theorem Coming.setWorker (h : Coming place s) {w : WorkerID} {worker : Worker}
    (hrun : u.running = s.running) (hpool : u.pool = s.pool.set w worker)
    (hw : place (s.worker w).thread = true → place worker.thread = true) : Coming place u := by
  refine h.frame (fun hne => hrun ▸ hne) (fun w' hw' => ?_)
  simp only [State.worker, hpool, WorkerPool.workers_set]
  split
  · rename_i he
    exact hw (he ▸ hw')
  · exact hw'

theorem running_of_entry {w : WorkerID} (h : s.running.lookup w ≠ none) : s.running ≠ ∅ := by
  intro hempty
  rw [hempty] at h
  exact h (Finmap.lookup_empty w)

theorem emplace_ne_empty (running : UnorderedMap WorkerID RunningReservation) (w : WorkerID)
    (reservation : RunningReservation) : running.emplace w reservation ≠ ∅ := by
  intro hempty
  have hlookup : (running.emplace w reservation).lookup w ≠ none := by
    cases hl : running.lookup w with
    | none => simp [UnorderedMap.emplace_of_none _ hl]
    | some old => simp [UnorderedMap.emplace_of_some _ hl, hl]
  exact hlookup (by simp [hempty])

/-! ## What is coming does not get lost -/

theorem CallFrame.coming (h : CallFrame s u) (hc : Coming place s) : Coming place u :=
  hc.frame (fun hne => h.running ▸ hne) (fun w hw => by rwa [State.worker, h.pool])

/-- The scheduler thread moves no worker thread and takes nothing out of `running_`. -/
theorem LoopEffect.coming (h : LoopEffect s evs u) (hc : Coming place s) : Coming place u := by
  cases h with
  | rest | peek | spec | observe | choose | skip | select | giveUp | acquire | handler | token
  | pop => exact hc.frame id (fun _ => id)
  | reserve | dispatch => exact hc.setWorker rfl rfl id
  | mark => exact .inl (emplace_ne_empty _ _ _)

/-- A wakeup that is coming has come with the section that asks for it, not before. -/
theorem ThreadEffect.wakeComing {w : WorkerID} (h : ThreadEffect s w evs u)
    (hno : (s.worker w).thread ≠ .waking) (hc : WakeComing s) : WakeComing u := by
  cases h with
  | take hthread | leave hthread _ _ | markRunning hthread | invoke hthread
  | leaveHandler _ hthread | complete _ hthread | reported hthread | becomeIdle hthread
  | announce hthread =>
    exact Coming.setWorker hc rfl rfl (fun hw => by rw [hthread] at hw; cases hw)
  | erase | release => exact .inr ⟨w, by simp [Thread.wakePending, State.setThread, Worker.setThread]⟩
  | eraseNone => exact .inr ⟨w, by simp [Thread.wakePending, Worker.setThread]⟩
  | wake _ hthread => exact absurd hthread hno

/-- An idle callback ends with the section that wakes everybody. -/
theorem ThreadEffect.notifyComing {w : WorkerID} (h : ThreadEffect s w evs u)
    (hc : Coming Thread.inCallback s) : Coming Thread.inCallback u ∨ u.sleeping = [] := by
  cases h with
  | take hthread | leave hthread _ _ | markRunning hthread | invoke hthread
  | leaveHandler _ hthread | complete _ hthread | reported hthread | becomeIdle hthread =>
    exact .inl (hc.setWorker rfl rfl (fun hw => by rw [hthread] at hw; cases hw))
  | erase | release =>
    exact .inl (.inr ⟨w, by simp [Thread.inCallback, State.setThread, Worker.setThread]⟩)
  | eraseNone | wake =>
    exact .inl (.inr ⟨w, by simp [Thread.inCallback, Worker.setThread]⟩)
  | announce => exact .inr rfl

/-- `Start` and `Shutdown` move only threads that are off or have left. -/
theorem PoolsEffect.keepsPlace {rm : ResourceManager} {pool : WorkerPool} (h : PoolsEffect s rm pool)
    (hs : Slots s.pool s.holder) (hoff : place .off = false) (hexited : place .exited = false)
    {w : WorkerID} (hw : place (s.worker w).thread = true) :
    place (pool.workers w).thread = true := by
  cases h with
  | same | register | closePool => exact hw
  | startPool =>
    simp only [WorkerPool.start]
    split
    · exact hw
    · simp only [Worker.start]
      split
      · split
        · exact hw
        · rename_i hdown
          have := ((hs.wellFormed w).down (by simpa using hdown)).2
          simp only [State.worker, this, hoff, Bool.false_eq_true] at hw
      · exact hw
  | requestStop w' =>
    rw [WorkerPool.workers_set]
    split
    · rename_i he
      exact he ▸ hw
    · exact hw
  | @reset w' hleft hloop =>
    rw [WorkerPool.workers_set]
    split
    · rename_i he
      rw [he, hleft, hexited] at hw
      cases hw
    · exact hw

theorem LifecycleEffect.coming (h : LifecycleEffect s u) (hs : Slots s.pool s.holder)
    (hoff : place .off = false) (hexited : place .exited = false) (hc : Coming place s) :
    Coming place u :=
  hc.frame (fun hne => h.running ▸ hne) (fun _ hw => h.pools.keepsPlace hs hoff hexited hw)

/-! ## Why a task waits -/

/-- The spec of the task that is being placed, and the workers that have not been ruled out. -/
def Holder.search? : Option Holder → Option (TaskSpec × List WorkerID)
  | some (.scheduling (.observing _ spec rest idle)) => some (spec, rest ++ idle)
  | some (.scheduling (.selecting _ spec rest)) => some (spec, rest)
  | _ => none

/-- While the scheduler waits, the queue is empty, or it is going to be asked to look at it. -/
structure Prompted (s : State) : Prop where
  searching : ∀ spec rest, Holder.search? s.holder = some (spec, rest) →
    WakeComing s ∨ ∃ w ∈ rest, w ∈ s.pool.workerIds ∧
      s.resourceManager.canFitTotal w spec.resources = true
  waiting : s.loop = .atWait → s.stopping = false →
    s.wakeRequested = true ∨ s.queue = [] ∨ WakeComing s

theorem prompted_initial (workerIds : List WorkerID) (capacity : ResourceSet) (callback : Bool) :
    Prompted (.initial workerIds capacity callback) where
  searching _ _ h := by cases h
  waiting h := by cases h

/-- The facts about the reservations that hold as long as no entry of `running_` is lost. -/
structure Accounted (s : State) : Prop where
  booked : ∃ seen, Booked seen s.resourceManager s.running s.pool s.holder
  entered : Entered s.running s.pool s.holder

theorem accounted_initial (workerIds : List WorkerID) (capacity : ResourceSet)
    (callback : Bool) : Accounted (.initial workerIds capacity callback) where
  booked := ⟨[], booked_initial workerIds⟩
  entered := entered_initial workerIds

theorem step_accounted {a : Action} (h : step s a = some u) (hi : Inv s)
    (hfree : entryFree s a = true) (ha : Accounted s) : Accounted u where
  booked := by
    obtain ⟨seen, hb⟩ := ha.booked
    exact ⟨_, step_booked h hi hfree hb⟩
  entered := step_entered h hi hfree ha.entered

/-- A worker that was not idle when it was looked at is at work. -/
theorem Accounted.wakeComing_of_not_idle (ha : Accounted s) (hi : Inv s) {w : WorkerID}
    (hreserved : Holder.reserved? s.holder = none) (hbusy : (s.worker w).isIdle = false) :
    WakeComing s := by
  have hnot : (s.worker w).state ≠ .reserved := by
    intro hr
    have := (hi.slots.reserved w).mp hr
    rw [hreserved] at this
    cases this
  have hstate : (s.worker w).state = .busy := by
    cases hs : (s.worker w).state with
    | idle => simp [Worker.isIdle, hs] at hbusy
    | reserved => exact absurd hs hnot
    | busy => rfl
  exact .inl (running_of_entry (ha.entered.entry w (.inl hstate)))

/-- A worker that has no room now for what it has room for in all has handed something out. -/
theorem Accounted.wakeComing_of_not_fitting (ha : Accounted s) {w : WorkerID}
    {request : ResourceRequest} (hin : Holder.inDispatch s.holder w = [])
    (htotal : s.resourceManager.canFitTotal w request = true)
    (hno : s.resourceManager.canFitAvailable w request = false) : WakeComing s := by
  obtain ⟨seen, hb⟩ := ha.booked
  obtain ⟨hreg, hle⟩ := ResourceManager.canFitTotal_iff.mp htotal
  have hclaims : claims s.running s.pool s.holder w ≠ [] := by
    intro hnil
    have hbal := (hb.tracked w).balanced
    rw [hnil] at hbal
    have hfits : s.resourceManager.canFitAvailable w request = true := by
      refine ResourceManager.canFitAvailable_iff.mpr ⟨hreg, fun name => ?_⟩
      rw [hbal.available_eq name]
      exact hle name
    rw [hfits] at hno
    cases hno
  simp only [claims, hin, List.append_nil, ne_eq, List.append_eq_nil_iff, not_and_or] at hclaims
  obtain hentry | hrel := hclaims
  · refine .inl (running_of_entry (w := w) (fun hnone => hentry ?_))
    rw [hnone]
    rfl
  · refine .inr ⟨w, ?_⟩
    simp only [State.worker]
    cases ht : (s.pool.workers w).thread with
    | releasing => rfl
    | off | waiting | taken | marked | executing | finished | reporting | returning | notifying
    | waking | announcing | exited =>
      rw [ht] at hrel
      exact absurd rfl hrel

/-! ## Each step keeps it so -/

theorem CallFrame.prompted (h : CallFrame s u)
    (hqueue : s.queue = [] → u.wakeRequested = true ∨ u.queue = [])
    (hwake : s.wakeRequested = true → u.wakeRequested = true)
    (hstopping : u.stopping = s.stopping) (hp : Prompted s) : Prompted u where
  searching spec rest hs := by
    have hholder : Holder.search? s.holder = some (spec, rest) := by
      cases hu : u.holder with
      | none => rw [hu] at hs; cases hs
      | some holder =>
        cases holder with
        | scheduling phase => rw [h.holder phase hu, ← hu, hs]
        | enqueueMark | enqueuePush | cancelRemove | cancelTask | cancelReport =>
          rw [hu] at hs
          cases hs
    obtain hw | hmem := hp.searching spec rest hholder
    · exact .inl (h.coming hw)
    · rw [h.pool, h.resourceManager]
      exact .inr hmem
  waiting hloop hno := by
    rw [h.loop] at hloop
    rw [hstopping] at hno
    obtain hw | hq | hc := hp.waiting hloop hno
    · exact .inl (hwake hw)
    · exact (hqueue hq).imp_right .inl
    · exact .inr (.inr (h.coming hc))

theorem callStep_prompted {a : CallAction} (h : callStep s a = some u) (hp : Prompted s) :
    Prompted u := by
  have hf := callFrame h
  cases callMove h with
  | push => exact hf.prompted (fun _ => .inl rfl) (fun _ => rfl) rfl hp
  | notify => exact hf.prompted .inr (fun _ => rfl) rfl hp
  | remove _ hmem =>
    refine hf.prompted (fun hq => .inr ?_) id rfl hp
    rw [hq] at hmem
    cases hmem
  | refuseChecks | passChecks | refuseRegister | register | refuseEnqueue | enterEnqueue
  | refuseMark | markQueued | notFound | beginRemove | beginCancel | refuseRemove | cancel
  | refuseCancel | cancelled | drainRefused | drained | drainSleeps =>
    exact hf.prompted .inr id rfl hp

/-- `TryScheduleOne` has stopped looking for a worker, or not begun. -/
theorem prompted_of_notSearching (hholder : Holder.search? u.holder = none)
    (hwaiting : u.loop = .atWait → u.stopping = false →
      u.wakeRequested = true ∨ u.queue = [] ∨ WakeComing u) : Prompted u where
  searching spec rest hs := by
    rw [hholder] at hs
    cases hs
  waiting := hwaiting

theorem loopWait_prompted (hfree : s.holder = none) (hloop : s.loop = .atWait)
    (hp : Prompted s) : Prompted (loopWait s) := by
  simp only [loopWait]
  split
  · refine prompted_of_notSearching (by simp [hfree, Holder.search?]) (fun h => ?_)
    cases h
  · split
    · refine prompted_of_notSearching (by simp [hfree, Holder.search?]) (fun h => ?_)
      cases h
    · exact prompted_of_notSearching (by simp [hfree, Holder.search?]) (fun _ hno => hp.waiting hloop hno)

theorem tryBegin_prompted (hloop : s.loop = .entering) : Prompted (tryBegin s) := by
  simp only [tryBegin]
  split
  · rename_i hstopping
    refine prompted_of_notSearching rfl (fun _ hno => ?_)
    simp only [State.tryReturns] at hno
    rw [hstopping] at hno
    cases hno
  · split
    · rename_i status hpeek
      refine prompted_of_notSearching rfl (fun _ _ => .inr (.inl ?_))
      cases hq : s.queue with
      | nil => simpa [State.tryReturns] using hq
      | cons t rest => simp [TaskQueue.peek, hq] at hpeek
    · refine prompted_of_notSearching rfl (fun h => ?_)
      simp only [State.setTry, hloop] at h
      cases h

theorem tryObserve_prompted {t : TaskID} {spec : TaskSpec} {rest idle : List WorkerID}
    (hholder : s.holder = some (.scheduling (.observing t spec rest idle))) (hi : Inv s)
    (ha : Accounted s) (hp : Prompted s) : Prompted (tryObserve s t spec rest idle) := by
  have hloop := hi.stage.scheduling _ hholder
  have hsearch := hp.searching spec (rest ++ idle) (by rw [hholder]; rfl)
  -- the search goes on with the workers that are left
  have goesOn : ∀ phase rest', Holder.search? (some (.scheduling phase)) = some (spec, rest') →
      (WakeComing s ∨ ∃ w ∈ rest', w ∈ s.pool.workerIds ∧
        s.resourceManager.canFitTotal w spec.resources = true) → Prompted (s.setTry phase) := by
    intro phase rest' hphase hleft
    refine ⟨fun spec' rest'' hs => ?_, fun h => ?_⟩
    · simp only [State.setTry] at hs
      rw [hphase] at hs
      cases hs
      exact hleft
    · simp only [State.setTry, hloop] at h
      cases h
  cases rest with
  | nil =>
    simp only [tryObserve]
    split
    · rename_i hnone
      refine prompted_of_notSearching rfl (fun _ _ => .inr (.inr ?_))
      obtain hw | ⟨w, hmem, -⟩ := hsearch
      · exact hw
      · rw [List.isEmpty_iff.mp hnone] at hmem
        cases hmem
    · exact goesOn _ idle rfl hsearch
  | cons w rest =>
    simp only [tryObserve]
    split
    · rename_i hmissing
      refine goesOn _ (rest ++ idle) rfl (hsearch.imp_right ?_)
      rintro ⟨w', hmem, hlisted, hfits⟩
      have hne : w' ≠ w := by
        rintro rfl
        simp [WorkerPool.findWorkerLocked, hlisted] at hmissing
      exact ⟨w', by simpa [hne] using hmem, hlisted, hfits⟩
    · rename_i worker hfound
      have hworker : worker = s.worker w := by
        simp only [WorkerPool.findWorkerLocked] at hfound
        split at hfound
        · cases hfound
          rfl
        · cases hfound
      subst hworker
      refine goesOn _ (rest ++ if (s.worker w).isIdle = true then idle ++ [w] else idle) rfl ?_
      obtain hw | ⟨w', hmem, hlisted, hfits⟩ := hsearch
      · exact .inl hw
      · cases hidle : (s.worker w).isIdle with
        | true =>
          refine .inr ⟨w', ?_, hlisted, hfits⟩
          simp only [List.cons_append, List.mem_cons, List.mem_append] at hmem
          simp only [if_true, List.mem_append, List.mem_singleton]
          tauto
        | false =>
          by_cases hne : w' = w
          · subst hne
            exact .inl (ha.wakeComing_of_not_idle hi (by rw [hholder]; rfl) hidle)
          · exact .inr ⟨w', by simpa [hne] using hmem, hlisted, hfits⟩

theorem trySelect_prompted {t : TaskID} {spec : TaskSpec} {rest : List WorkerID}
    (hholder : s.holder = some (.scheduling (.selecting t spec rest))) (hi : Inv s)
    (ha : Accounted s) (hp : Prompted s) : Prompted (trySelect s t spec rest) := by
  have hloop := hi.stage.scheduling _ hholder
  have hsearch := hp.searching spec rest (by rw [hholder]; rfl)
  cases rest with
  | nil =>
    refine prompted_of_notSearching rfl (fun _ _ => .inr (.inr ?_))
    obtain hw | ⟨w, hmem, -⟩ := hsearch
    · exact hw
    · cases hmem
  | cons w rest =>
    simp only [trySelect]
    split
    · refine prompted_of_notSearching rfl (fun h => ?_)
      simp only [State.setTry, hloop] at h
      cases h
    · rename_i hno
      refine ⟨fun spec' rest' hs => ?_, fun h => ?_⟩
      · cases hs
        obtain hw | ⟨w', hmem, hlisted, hfits⟩ := hsearch
        · exact .inl hw
        · by_cases hne : w' = w
          · subst hne
            exact .inl (ha.wakeComing_of_not_fitting (by rw [hholder]; rfl) hfits (by simpa using hno))
          · exact .inr ⟨w', by simpa [hne] using hmem, hlisted, hfits⟩
      · simp only [State.setTry, hloop] at h
        cases h

theorem loopStep_prompted {a : LoopAction} (h : loopStep s a = some u) (hi : Inv s)
    (hadm : Admitted s) (ha : Accounted s) (hp : Prompted s) : Prompted u := by
  have he := loopEffect h hi.unfailing
  cases a with
  | wait =>
    simp only [loopStep] at h
    split at h
    · rename_i hloop hfree
      split at h
      · cases h
      · cases h
        exact loopWait_prompted hfree hloop hp
    · cases h
  | check =>
    simp only [loopStep] at h
    split at h
    · rename_i hloop hfree
      cases h
      refine prompted_of_notSearching (by simp [hfree, Holder.search?]) (fun h => ?_)
      simp only at h
      split at h <;> cases h
    · cases h
  | tryBegin =>
    simp only [loopStep] at h
    split at h
    · rename_i hloop hfree
      cases h
      exact tryBegin_prompted hloop
    · cases h
  | tryObserve =>
    simp only [loopStep] at h
    split at h
    · rename_i hholder
      cases h
      exact tryObserve_prompted hholder hi ha hp
    · cases h
  | trySelect =>
    simp only [loopStep] at h
    split at h
    · rename_i hholder
      cases h
      exact trySelect_prompted hholder hi ha hp
    · cases h
  | trySpec | tryReserve | tryAcquire | tryHandler | tryToken | tryPop | tryMark | tryDispatch
  | undoRelease | undoReserve =>
    -- the scheduler thread is in `TryScheduleOne`, and it does not give up
    have entering : ∀ {phase}, s.holder = some (.scheduling phase) → s.loop = .entering :=
      fun hholder => hi.stage.scheduling _ hholder
    generalize hevs : loopEvents s _ = evs at he
    have hheld : s.holder ≠ none := by
      intro hfree
      simp [loopStep, hfree] at h
    cases he with
    | rest _ _ _ hfree | peek hfree => exact absurd hfree hheld
    | @spec t record hholder hrecord =>
      refine ⟨fun spec' rest' hs => ?_, fun hl => ?_⟩
      · cases hs
        obtain ⟨w, hmem, hfits⟩ := hadm.records t record hrecord
        exact .inr ⟨w, by simpa using hmem, hmem, hfits⟩
      · simp only [State.setTry, entering hholder] at hl
        cases hl
    | observe _ hholder | choose hholder | skip hholder | select hholder =>
      simp [loopStep, hholder] at h
    | giveUp hholder hphase =>
      obtain ⟨_, _, _, rfl⟩ | ⟨_, _, rfl⟩ := hphase <;> simp [loopStep, hholder] at h
    | reserve hholder | acquire hholder | handler hholder | token hholder | pop hholder
    | mark _ hholder =>
      refine prompted_of_notSearching rfl (fun hl => ?_)
      simp only [State.setTry, State.setWorker, entering hholder] at hl
      cases hl
    | dispatch hholder =>
      refine prompted_of_notSearching rfl (fun hl => ?_)
      simp only [State.tryReturns, if_true] at hl
      cases hl

theorem threadStep_prompted {w : WorkerID} {a : ThreadAction} (h : threadStep s w a = some u)
    (hi : Inv s) (hp : Prompted s) : Prompted u := by
  have he := threadEffect h hi.unfailing
  by_cases hwaking : (s.worker w).thread = .waking
  · -- the second section of the idle callback asks for the wakeup itself
    generalize hevs : threadEvents s w a = evs at he
    have ha : a = .idleWake ∧ s.holder = none ∧ u = idleWake s w := by
      cases a with
      | idleWake =>
        simp only [threadStep, hwaking] at h
        split at h
        · rename_i hfree
          cases h
          exact ⟨rfl, by assumption, rfl⟩
        · cases h
      | take =>
        simp only [threadStep, Worker.take, hwaking, Option.map_none, reduceCtorEq] at h
      | markRunning | invoke | leaveHandler | complete | reported | becomeIdle | idleErase
      | idleRelease | idleNotify => simp [threadStep, hwaking] at h
    obtain ⟨-, hfree, rfl⟩ := ha
    refine prompted_of_notSearching ?_ (fun hl hno => .inl ?_)
    · simp [idleWake, State.setThread, State.setWorker, hfree, Holder.search?]
    · simp only [idleWake, State.setThread, State.setWorker] at hl hno ⊢
      have hstarted := hi.stage.loop_started (by rw [hl]; rfl)
      simp [hstarted, hno]
  · have hcoming : WakeComing s → WakeComing u := he.wakeComing hwaking
    have hframe : u.holder = s.holder ∧ u.pool.workerIds = s.pool.workerIds ∧
        (∀ w' request, s.resourceManager.canFitTotal w' request = true →
          u.resourceManager.canFitTotal w' request = true) ∧
        u.loop = s.loop ∧ u.stopping = s.stopping ∧ u.wakeRequested = s.wakeRequested ∧
        u.queue = s.queue := by
      generalize threadEvents s w a = evs at he
      cases he with
      | wake _ hthread => exact absurd hthread hwaking
      | @release reservation hthread =>
        obtain ⟨htotal, hreg, -⟩ := s.resourceManager.release_cases w reservation.resources
        refine ⟨rfl, rfl, fun w' request hfits => ?_, rfl, rfl, rfl, rfl⟩
        simp only [State.setThread, State.setWorker]
        rw [ResourceManager.canFitTotal_iff] at hfits ⊢
        rwa [htotal, hreg]
      | take | leave | markRunning | invoke | leaveHandler | complete | reported | becomeIdle
      | erase | eraseNone | announce => exact ⟨rfl, rfl, fun _ _ => id, rfl, rfl, rfl, rfl⟩
    obtain ⟨hholder, hids, hfits, hloop, hstopping, hwake, hqueue⟩ := hframe
    refine ⟨fun spec rest hs => ?_, fun hl hno => ?_⟩
    · rw [hholder] at hs
      rw [hids]
      refine (hp.searching spec rest hs).imp hcoming ?_
      rintro ⟨w', hmem, hlisted, hfit⟩
      exact ⟨w', hmem, hlisted, hfits _ _ hfit⟩
    · rw [hloop] at hl
      rw [hstopping] at hno
      rw [hwake, hqueue]
      exact (hp.waiting hl hno).imp_right (.imp_right hcoming)

/-- What a worker has room for in all it has room for later, and the pool keeps its workers. -/
theorem PoolsEffect.canFitTotal {rm : ResourceManager} {pool : WorkerPool} (h : PoolsEffect s rm pool) :
    pool.workerIds = s.pool.workerIds ∧ ∀ w request,
      s.resourceManager.canFitTotal w request = true → rm.canFitTotal w request = true := by
  cases h with
  | startPool =>
    refine ⟨?_, fun _ _ => id⟩
    simp only [WorkerPool.start]
    split <;> rfl
  | register =>
    refine ⟨rfl, fun w request hfits => ?_⟩
    obtain he | ⟨hnone, -⟩ :=
      lookup_registerAll s.resourcesPerWorker s.pool.workerIds s.resourceManager w
    · simpa only [ResourceManager.canFitTotal, he] using hfits
    · simp [ResourceManager.canFitTotal, hnone] at hfits
  | same | closePool | requestStop | reset => exact ⟨rfl, fun _ _ => id⟩

theorem lifecycleStep_prompted {a : LifecycleAction} (h : lifecycleStep s a = some u) (hi : Inv s)
    (hp : Prompted s) : Prompted u := by
  have he := lifecycleEffect h hi.stage
  have hcoming : WakeComing s → WakeComing u := he.coming hi.slots rfl rfl
  refine ⟨fun spec rest hs => ?_, fun hl hno => ?_⟩
  · rw [he.holder] at hs
    refine (hp.searching spec rest hs).imp hcoming ?_
    rintro ⟨w, hmem, hlisted, hfits⟩
    obtain ⟨hids, hfit⟩ := he.pools.canFitTotal
    exact ⟨w, hmem, hids ▸ hlisted, hfit _ _ hfits⟩
  · have hloop : (u.loop = s.loop ∧ u.stopping = s.stopping ∧ u.wakeRequested = s.wakeRequested) ∨
        u.wakeRequested = true ∨ u.stopping = true ∨ u.loop ≠ .atWait := by
      cases lifecycleMove h with
      | startScheduler => exact .inr (.inl rfl)
      | stop => exact .inr (.inr (.inl rfl))
      | join => exact .inr (.inr (.inr (by simp)))
      | ignored | startBegin | startPool | keepScheduler | «open» | shutdownBegin | drainRefused
      | drained | drainSleeps | notStarted | notify | stopped | closePool | poolDown | stopWorker
      | skipWorker | allStopped | joinWorker | resetWorker | publish => exact .inl ⟨rfl, rfl, rfl⟩
    obtain ⟨hsame, hstopping, hwake⟩ | hwake | hstopping | hne := hloop
    · rw [hsame] at hl
      rw [hstopping] at hno
      rw [hwake, he.queue]
      exact (hp.waiting hl hno).imp_right (.imp_right hcoming)
    · exact .inl hwake
    · rw [hstopping] at hno
      cases hno
    · exact absurd hl hne

theorem step_prompted {a : Action} (h : step s a = some u) (hi : Inv s) (hadm : Admitted s)
    (ha : Accounted s) (hp : Prompted s) : Prompted u := by
  cases a with
  | call a => exact callStep_prompted h hp
  | loop a => exact loopStep_prompted h hi hadm ha hp
  | thread w a => exact threadStep_prompted h hi hp
  | lifecycle a => exact lifecycleStep_prompted h hi hp
  | wake waiter =>
    obtain rfl := step_wake h
    exact ⟨hp.searching, hp.waiting⟩

end LocalSystem

end AgentRuntime
