import AgentRuntime.Local.Agreement
import AgentRuntime.Local.Ownership
import AgentRuntime.Local.Queue

/-!
# The invariant of the local runtime

Stages, slots, queue, ownership and agreement hold together in every reachable
state, and together they keep the scheduler out of every branch in which it
would have to give up an operation half way.
-/
namespace AgentRuntime

namespace LocalSystem

/-- The selected worker keeps its room until it is acquired, since others only give back;
and the scheduler is not undoing anything. -/
structure Prospect (rm : ResourceManager) (holder : Option Holder) : Prop where
  fits : ∀ p, holder = some (.scheduling (.reserving p)) ∨
      holder = some (.scheduling (.acquiring p)) →
    rm.canFitAvailable p.worker p.spec.resources = true
  notReleasing : ∀ p, holder ≠ some (.scheduling (.undoRelease p))
  notReturning : ∀ w, holder ≠ some (.scheduling (.undoReserve w))

variable {rm : ResourceManager} {holder holder' : Option Holder}

/-- A phase in which no room is promised. -/
theorem Prospect.other
    (hfits : ∀ p, holder ≠ some (.scheduling (.reserving p)) ∧
      holder ≠ some (.scheduling (.acquiring p)))
    (hno : ∀ p, holder ≠ some (.scheduling (.undoRelease p)))
    (hno' : ∀ w, holder ≠ some (.scheduling (.undoReserve w))) : Prospect rm holder where
  fits p hp := by
    obtain hp | hp := hp
    · exact absurd hp (hfits p).1
    · exact absurd hp (hfits p).2
  notReleasing := hno
  notReturning := hno'

structure Inv (s : State) : Prop where
  stage : Stage s
  slots : Slots s.pool s.holder
  queueing : Queueing s.taskManager s.queue s.holder
  ownership : Ownership s.taskManager s.pool s.holder
  agreement : Agreement s.taskManager s.pool s.holder
  prospect : Prospect s.resourceManager s.holder

theorem inv_initial (workerIds : List WorkerID) (capacity : ResourceSet) (callback : Bool) :
    Inv (.initial workerIds capacity callback) where
  stage := stage_initial workerIds capacity callback
  slots := slots_initial workerIds
  queueing := queueing_initial callback
  ownership := ownership_initial workerIds callback
  agreement := agreement_initial workerIds callback
  prospect := .other (by simp [State.initial]) (by simp [State.initial]) (by simp [State.initial])

variable {s u : State} {evs : List Event}

/-! ## No operation fails half way -/

theorem Inv.unfailing_holder (h : Inv s) (holder : Holder) (hh : s.holder = some holder) :
    holder.Unfailing s := by
  cases holder with
  | scheduling phase =>
    have hpool := h.stage.loop_pool (by rw [h.stage.scheduling phase hh]; rfl)
    cases phase with
    | fetchingSpec t =>
      obtain ⟨rest, hqueue⟩ := h.queueing.head t (by rw [hh]; rfl)
      obtain ⟨record, hrecord, -⟩ := (h.queueing.queued t).mpr (.inl (by simp [hqueue]))
      exact ⟨record, hrecord⟩
    | reserving p =>
      obtain ⟨hmem, hidle⟩ := h.slots.observed p.worker (by rw [hh]; simp [Holder.observed])
      obtain ⟨hstarted, hstopping⟩ := h.stage.pool_workers hpool p.worker hmem
      exact ⟨hpool, hmem, hstarted, hstopping, hidle⟩
    | acquiring p => exact h.prospect.fits p (.inr hh)
    | fetchingHandler p | fetchingToken p handler =>
      obtain ⟨record, hrecord, -⟩ := h.agreement.placed p.task p.spec (by rw [hh]; rfl)
      exact ⟨record, hrecord⟩
    | popping p handler token => exact h.queueing.head p.task (by rw [hh]; rfl)
    | marking p handler token => exact (h.queueing.queued p.task).mpr (.inr (by rw [hh]; rfl))
    | dispatching p work =>
      have hreserved : (s.worker p.worker).state = .reserved :=
        (h.slots.reserved p.worker).mpr (by rw [hh]; rfl)
      have hwf : (s.worker p.worker).WellFormed := h.slots.wellFormed p.worker
      have hup : (s.worker p.worker).started = true := by
        cases hs : (s.worker p.worker).started with
        | true => rfl
        | false => simp [(hwf.down hs).1] at hreserved
      have hmem := h.slots.listed p.worker hup
      obtain ⟨hstarted, hstopping⟩ := h.stage.pool_workers hpool p.worker hmem
      exact ⟨hpool, hmem, hstarted, hstopping, hreserved, (hwf.free (by simp [hreserved])).1⟩
    | undoRelease p => exact h.prospect.notReleasing p hh
    | undoReserve w => exact h.prospect.notReturning w hh
    | observing _ _ _ _ | selecting _ _ _ => trivial
  | cancelRemove k t => exact h.queueing.removing k t hh
  | cancelTask k t queued =>
    cases queued with
    | true => exact (h.queueing.queued t).mpr (.inr (by rw [hh]; rfl))
    | false => trivial
  | enqueueMark _ _ | enqueuePush _ _ | cancelReport _ _ _ => trivial

/-- A task that `Cancel` has found queued can be cancelled. -/
theorem Inv.cancel_ok (h : Inv s) {k : Nat} {t : TaskID}
    (hholder : s.holder = some (.cancelTask k t true)) : (s.taskManager.cancel t).1.ok = true := by
  obtain ⟨record, hl, hqueued⟩ := h.unfailing_holder _ hholder
  obtain ⟨status, -, -, hnot⟩ | ⟨record', -, -, he⟩ | ⟨record', -, -, he⟩ :=
    s.taskManager.cancel_cases t
  · exact absurd hqueued (hnot record hl).1
  · simp [he]
  · simp [he]

/-- The record of the item that a thread holds. -/
theorem Inv.record_of_thread (h : Inv s) {w : WorkerID} {work : WorkItem} {x : ExecutionState}
    (ht : (s.worker w).thread.item? = some (work, x)) : ∃ record,
      s.record work.spec.id = some record ∧ record.state = x ∧ record.worker = some w ∧
        record.handler = work.handler := by
  have hitem : (s.pool.workers w).item? = _ := (h.slots.wellFormed w).item?_of_thread ht
  have hhold : holding s.pool s.holder w = some (work.spec.id, x) := by
    simp only [holding, hitem]
  obtain ⟨record, hl, hx, hw⟩ := h.ownership.record_of_holding hhold
  obtain ⟨record', hl', -, hhandler⟩ := h.agreement.items w work x hitem
  rw [hl] at hl'
  cases hl'
  exact ⟨record, hl, hx, hw, hhandler⟩

theorem Inv.unfailing (h : Inv s) : Unfailing s where
  holder := h.unfailing_holder
  threads w := by
    simp only [ThreadUnfailing]
    split
    · rename_i work hthread
      obtain ⟨record, hl, hx, -, -⟩ := h.record_of_thread (w := w) (by rw [hthread]; rfl)
      exact ⟨record, hl, hx⟩
    · rename_i work hthread
      obtain ⟨record, hl, -, -, hhandler⟩ := h.record_of_thread (w := w) (by rw [hthread]; rfl)
      rw [← hhandler]
      exact (h.agreement.records _ _ hl).2
    · rename_i work outcome hthread
      obtain ⟨record, hl, hx, -, -⟩ := h.record_of_thread (w := w) (by rw [hthread]; rfl)
      exact ⟨record, hl, hx⟩
    · trivial

/-! ## Every step keeps the invariant -/

variable {submitting : TaskSpec → TaskHandler → Prop}
  {tm tm' : TaskManager} {queue queue' : TaskQueue} {pool : WorkerPool}

theorem callEffect_prospect (h : CallEffect submitting tm queue holder tm' queue' holder')
    (hp : Prospect rm holder) : Prospect rm holder' := by
  cases h with
  | same | register => exact hp
  | beginEnqueue | beginRemove | beginCancel | markQueued | push | remove | cancelQueued
  | cancelRunning | refuseEnqueue | refuseCancel | «return» =>
    exact .other (by simp) (by simp) (by simp)

theorem loopEffect_prospect (h : LoopEffect s evs u) (hp : Prospect s.resourceManager s.holder) :
    Prospect u.resourceManager u.holder := by
  cases h with
  | rest => exact hp
  | select hholder hfits =>
    refine ⟨?_, by simp [State.setTry], by simp [State.setTry]⟩
    intro p hp
    simp only [State.setTry, Option.some.injEq, Holder.scheduling.injEq, TryPhase.reserving.injEq,
      reduceCtorEq, or_false] at hp
    subst hp
    exact hfits
  | reserve hholder _ _ =>
    refine ⟨?_, by simp [State.setTry], by simp [State.setTry]⟩
    intro p hp'
    simp only [State.setTry, Option.some.injEq, Holder.scheduling.injEq, TryPhase.acquiring.injEq,
      reduceCtorEq, false_or] at hp'
    subst hp'
    exact hp.fits _ (.inl hholder)
  | peek | spec | observe | choose | skip | giveUp | acquire | handler | token | pop | mark
  | dispatch =>
    exact .other (by simp [State.setTry, State.tryReturns])
      (by simp [State.setTry, State.tryReturns]) (by simp [State.setTry, State.tryReturns])

theorem threadEffect_prospect {w : WorkerID} (h : ThreadEffect s w evs u)
    (hp : Prospect s.resourceManager s.holder) : Prospect u.resourceManager u.holder := by
  cases h with
  | release hthread =>
    refine ⟨?_, hp.notReleasing, hp.notReturning⟩
    intro p hholder
    exact ResourceManager.canFitAvailable_release (hp.fits p hholder)
  | take | leave | markRunning | invoke | leaveHandler | complete | reported | becomeIdle | erase
  | eraseNone | wake | announce => exact hp

/-- The loop of `Start` adds full pools and leaves those that exist alone. -/
theorem lookup_registerAll (capacity : ResourceSet) (ids : List WorkerID) (rm : ResourceManager)
    (w : WorkerID) :
    (registerAll capacity ids rm).2.pools.lookup w = rm.pools.lookup w ∨
    rm.pools.lookup w = none ∧
      (registerAll capacity ids rm).2.pools.lookup w = some (.new capacity) := by
  induction ids generalizing rm with
  | nil => exact .inl rfl
  | cons id rest ih =>
    have hstep : (rm.registerWorker id capacity).2.pools.lookup w = rm.pools.lookup w ∨
        rm.pools.lookup w = none ∧
          (rm.registerWorker id capacity).2.pools.lookup w = some (.new capacity) := by
      obtain ⟨-, he⟩ | ⟨hnew, hl⟩ := rm.registerWorker_cases id capacity
      · rw [he]
        exact .inl rfl
      · rw [hl w]
        split
        · rename_i he
          subst he
          exact .inr ⟨by simpa [ResourceManager.registered] using hnew, rfl⟩
        · exact .inl rfl
    simp only [registerAll]
    split
    · obtain he | ⟨hnone, he⟩ := ih (rm.registerWorker id capacity).2
      · rw [he]
        exact hstep
      · rw [he]
        rw [hnone] at hstep
        obtain h | ⟨-, h⟩ := hstep
        · exact .inr ⟨h.symm, rfl⟩
        · cases h
    · exact hstep

theorem poolsEffect_prospect (h : PoolsEffect s rm pool)
    (hp : Prospect s.resourceManager s.holder) : Prospect rm s.holder := by
  cases h with
  | register =>
    refine ⟨?_, hp.notReleasing, hp.notReturning⟩
    intro p hholder
    have hfits := hp.fits p hholder
    obtain he | ⟨hnone, -⟩ := lookup_registerAll s.resourcesPerWorker s.pool.workerIds
      s.resourceManager p.worker
    · simpa only [ResourceManager.canFitAvailable, he] using hfits
    · simp [ResourceManager.canFitAvailable, hnone] at hfits
  | same | startPool | closePool | requestStop | reset => exact hp

theorem callStep_inv {a : CallAction} (h : callStep s a = some u) (hi : Inv s) : Inv u := by
  have he := callEffect h hi.unfailing
  have hframe := callFrame h
  exact {
    stage := callStep_stage h hi.stage
    slots := by
      rw [hframe.pool]
      exact callEffect_slots he hi.slots
    queueing := callEffect_queueing he hi.queueing
    ownership := by
      rw [hframe.pool]
      exact callEffect_ownership he hi.ownership
    agreement := by
      rw [hframe.pool]
      exact callEffect_agreement he hi.agreement
    prospect := by
      rw [hframe.resourceManager]
      exact callEffect_prospect he hi.prospect }

theorem loopEffect_inv (h : LoopEffect s evs u) (hi : Inv s) : Inv u where
  stage := loopEffect_stage h hi.stage
  slots := loopEffect_slots h hi.slots
  queueing := loopEffect_queueing h hi.queueing
  ownership := by
    refine loopEffect_ownership h hi.slots ?_ hi.ownership
    intro p handler token hh
    obtain ⟨record, hl, hspec⟩ := hi.agreement.placed p.task p.spec (by rw [hh]; rfl)
    rw [← hspec]
    exact (hi.agreement.records _ _ hl).1
  agreement := loopEffect_agreement h hi.agreement
  prospect := loopEffect_prospect h hi.prospect

theorem threadEffect_inv {w : WorkerID} (h : ThreadEffect s w evs u) (hi : Inv s) : Inv u where
  stage := threadEffect_stage h hi.stage
  slots := threadEffect_slots h hi.slots
  queueing := threadEffect_queueing h hi.queueing
  ownership := threadEffect_ownership h hi.slots hi.ownership
  agreement := threadEffect_agreement h hi.slots hi.agreement
  prospect := threadEffect_prospect h hi.prospect

theorem lifecycleStep_inv {a : LifecycleAction} (h : lifecycleStep s a = some u) (hi : Inv s) :
    Inv u := by
  obtain ⟨htm, hqueue, hholder, -, -, -, hpools⟩ := lifecycleEffect h hi.stage
  exact {
    stage := lifecycleStep_stage h hi.stage
    slots := by
      rw [hholder]
      exact poolsEffect_slots hpools hi.stage hi.slots
    queueing := by
      rw [htm, hqueue, hholder]
      exact hi.queueing
    ownership := by
      rw [htm, hholder]
      exact poolsEffect_ownership hpools hi.slots hi.ownership
    agreement := by
      rw [htm, hholder]
      exact poolsEffect_agreement hpools hi.slots hi.agreement
    prospect := by
      rw [hholder]
      exact poolsEffect_prospect hpools hi.prospect }

theorem step_inv {a : Action} (h : step s a = some u) (hi : Inv s) : Inv u := by
  cases a with
  | call a => exact callStep_inv h hi
  | loop a => exact loopEffect_inv (loopEffect h hi.unfailing) hi
  | thread w a => exact threadEffect_inv (threadEffect h hi.unfailing) hi
  | lifecycle a => exact lifecycleStep_inv h hi
  | wake waiter =>
    obtain rfl := step_wake h
    exact { hi with stage := { hi.stage with } }

/-- The invariant holds in every state of every run of a new runtime. -/
theorem inv_run {workerIds : List WorkerID} {capacity : ResourceSet} {callback : Bool}
    {as : List Action} (h : Run.run step as (.initial workerIds capacity callback) = some s) :
    Inv s :=
  Run.invariant_run (fun _ _ _ hi hstep => step_inv hstep hi) h
    (inv_initial workerIds capacity callback)

end LocalSystem

end AgentRuntime
