import AgentRuntime.Local.Effects

/-!
# The execution slots

Only the scheduler thread takes a worker out of the idle state, and a worker is
reserved exactly while `TryScheduleOne` has reserved it. So a worker that was
observed to be idle is still idle when it is reserved.
-/
namespace AgentRuntime

namespace LocalSystem

variable {s u : State} {evs : List Event}

/-! ## The stages of the threads -/

theorem callStep_stage {a : CallAction} (h : callStep s a = some u) (hs : Stage s) : Stage u := by
  obtain ⟨hpool, -, -, hstarted, hcontrol, hloop, hlife, hholder⟩ := callFrame h
  have hstart : u.lifecycle = s.lifecycle ∨ LifecycleHolder.isStart u.lifecycle = false := by
    generalize u.lifecycle = lifecycle at hlife
    cases hlife with
    | same => exact .inl rfl
    | returned | admitted | registered | entered => exact .inr rfl
  refine hs.frame (by rw [hpool]) (by rw [hpool]) ?_ ?_ hstarted hcontrol hstart
    (by rw [hloop]; exact id) ?_
  · intro w
    rw [State.worker, hpool]
    exact ⟨rfl, rfl⟩
  · intro w hw
    rw [State.worker, hpool]
    exact hw
  · intro phase hp
    rw [hloop]
    exact hs.scheduling phase (hholder phase hp)

/-- The steps of the scheduler thread inside `TryScheduleOne`. -/
theorem Stage.inTry (hs : Stage s) {phase : TryPhase}
    (hholder : s.holder = some (.scheduling phase))
    (hpool : u.pool.started = s.pool.started) (hids : u.pool.workerIds = s.pool.workerIds)
    (hworkers : ∀ w, (u.worker w).started = (s.worker w).started ∧
      (u.worker w).stopping = (s.worker w).stopping ∧ (u.worker w).thread = (s.worker w).thread)
    (hstarted : u.started = s.started) (hcontrol : u.control = s.control)
    (hlife : u.lifecycle = s.lifecycle) (hloop : u.loop = s.loop ∨ u.holder = none) :
    Stage u := by
  have hentering := hs.scheduling phase hholder
  refine hs.frame hpool hids (fun w => ⟨(hworkers w).1, (hworkers w).2.1⟩)
    (fun w hw => (hworkers w).2.2.trans hw) hstarted hcontrol (.inl hlife)
    (fun _ => by rw [hentering]; rfl) ?_
  intro phase' hp
  obtain he | hnone := hloop
  · rw [he, hentering]
  · rw [hnone] at hp
    cases hp

theorem loopEffect_stage (h : LoopEffect s evs u) (hs : Stage s) : Stage u := by
  cases h with
  | rest loop wake sleeping hfree hloop =>
    refine hs.frame rfl rfl (fun _ => ⟨rfl, rfl⟩) (fun _ h => h) rfl rfl (.inl rfl)
      (fun _ => hloop) ?_
    intro phase hp
    rw [show s.holder = _ from hp] at hfree
    cases hfree
  | peek hfree hloop hqueue =>
    exact hs.frame rfl rfl (fun _ => ⟨rfl, rfl⟩) (fun _ h => h) rfl rfl (.inl rfl) id
      (fun _ _ => hloop)
  | spec hholder _ | observe _ hholder _ | choose hholder | skip hholder | select hholder _
  | acquire hholder _ | handler hholder _ | token hholder | pop hholder _ | mark _ hholder _ _ =>
    exact hs.inTry hholder rfl rfl (fun _ => ⟨rfl, rfl, rfl⟩) rfl rfl rfl (.inl rfl)
  | giveUp hholder _ =>
    exact hs.inTry hholder rfl rfl (fun _ => ⟨rfl, rfl, rfl⟩) rfl rfl rfl (.inr rfl)
  | reserve hholder _ _ =>
    refine hs.inTry hholder rfl rfl (fun w => ?_) rfl rfl rfl (.inl rfl)
    simp only [State.setTry, State.worker, State.setWorker, WorkerPool.workers_set]
    split <;> simp_all
  | dispatch hholder _ _ _ _ =>
    refine hs.inTry hholder rfl rfl (fun w => ?_) rfl rfl rfl (.inr rfl)
    simp only [State.tryReturns, State.worker, State.setWorker, WorkerPool.workers_set]
    split <;> simp_all

/-- The steps of the thread of a worker. -/
theorem Stage.inThread (hs : Stage s) {w : WorkerID} {worker : Worker}
    (hpool : u.pool = s.pool.set w worker) (hstarted : worker.started = (s.worker w).started)
    (hstopping : worker.stopping = (s.worker w).stopping)
    (hexited : (s.worker w).thread ≠ .exited) (hrun : u.started = s.started)
    (hcontrol : u.control = s.control) (hlife : u.lifecycle = s.lifecycle)
    (hloop : u.loop = s.loop) (hholder : u.holder = s.holder) : Stage u := by
  have hworker : ∀ w', u.worker w' = if w' = w then worker else s.worker w' := by
    intro w'
    rw [State.worker, hpool]
    rfl
  refine hs.frame (by rw [hpool]; rfl) (by rw [hpool]; rfl) ?_ ?_ hrun hcontrol (.inl hlife)
    (by rw [hloop]; exact id) ?_
  · intro w'
    rw [hworker w']
    split
    · rename_i he
      rw [he]
      exact ⟨hstarted, hstopping⟩
    · exact ⟨rfl, rfl⟩
  · intro w' hw'
    rw [hworker w', if_neg]
    · exact hw'
    · rintro rfl
      exact hexited hw'
  · intro phase hp
    rw [hloop]
    rw [hholder] at hp
    exact hs.scheduling phase hp

theorem threadEffect_stage {w : WorkerID} (h : ThreadEffect s w evs u) (hs : Stage s) :
    Stage u := by
  cases h with
  | take hthread _ | leave hthread _ _ | markRunning hthread _ _ | invoke hthread
  | leaveHandler _ hthread | complete _ hthread _ _ _ | reported hthread | becomeIdle hthread
  | erase hthread _ _ | eraseNone hthread _ _ | release hthread | wake _ hthread
  | announce hthread =>
    exact hs.inThread rfl rfl rfl (by rw [hthread]; simp) rfl rfl rfl rfl rfl

/-! ## Reserved and observed workers -/

namespace Holder

/-- The worker that `TryScheduleOne` has reserved and not yet handed its work. -/
def reserved? : Option Holder → Option WorkerID
  | some (.scheduling phase) =>
    match phase with
    | .acquiring p | .fetchingHandler p | .fetchingToken p _ | .popping p _ _ | .marking p _ _
    | .dispatching p _ | .undoRelease p => some p.worker
    | .undoReserve w => some w
    | .fetchingSpec _ | .observing _ _ _ _ | .selecting _ _ _ | .reserving _ => none
  | _ => none

/-- The workers that `TryScheduleOne` has seen idle and may still choose. -/
def observed : Option Holder → List WorkerID
  | some (.scheduling (.observing _ _ _ idle)) => idle
  | some (.scheduling (.selecting _ _ rest)) => rest
  | some (.scheduling (.reserving p)) => [p.worker]
  | _ => []

end Holder

structure Slots (pool : WorkerPool) (holder : Option Holder) : Prop where
  wellFormed : ∀ w, (pool.workers w).WellFormed
  listed : ∀ w, (pool.workers w).started = true → w ∈ pool.workerIds
  reserved : ∀ w, (pool.workers w).state = .reserved ↔ Holder.reserved? holder = some w
  observed : ∀ w ∈ Holder.observed holder, w ∈ pool.workerIds ∧ (pool.workers w).state = .idle

theorem slots_initial (workerIds : List WorkerID) : Slots (.new workerIds) none where
  wellFormed _ := Worker.wellFormed_new
  listed _ h := by cases h
  reserved _ := by simp [WorkerPool.new, Worker.new, Holder.reserved?]
  observed _ h := by cases h

variable {pool : WorkerPool} {holder holder' : Option Holder}
  {submitting : TaskSpec → TaskHandler → Prop}

/-- Another phase with the same reservation, in which no more workers are observed. -/
theorem Slots.rehold (h : Slots pool holder) (hr : Holder.reserved? holder' = Holder.reserved? holder)
    (ho : ∀ w ∈ Holder.observed holder', w ∈ Holder.observed holder) : Slots pool holder' where
  wellFormed := h.wellFormed
  listed := h.listed
  reserved w := by
    rw [hr]
    exact h.reserved w
  observed w hw := h.observed w (ho w hw)

/-- One worker changes without being reserved or given up. -/
theorem Slots.set (h : Slots pool holder) {w : WorkerID} {worker : Worker}
    (hwf : worker.WellFormed)
    (hs : worker.started = true → (pool.workers w).started = true)
    (hr : worker.state = .reserved ↔ (pool.workers w).state = .reserved)
    (hi : (pool.workers w).state = .idle → worker.state = .idle) :
    Slots (pool.set w worker) holder where
  wellFormed w' := by
    rw [WorkerPool.workers_set]
    split
    · exact hwf
    · exact h.wellFormed w'
  listed w' hw' := by
    rw [WorkerPool.workers_set] at hw'
    split at hw'
    · rename_i he
      exact he ▸ h.listed w (hs hw')
    · exact h.listed w' hw'
  reserved w' := by
    rw [WorkerPool.workers_set]
    split
    · rename_i he
      rw [he, hr]
      exact h.reserved w
    · exact h.reserved w'
  observed w' hw' := by
    obtain ⟨hmem, hidle⟩ := h.observed w' hw'
    refine ⟨hmem, ?_⟩
    rw [WorkerPool.workers_set]
    split
    · rename_i he
      exact hi (he ▸ hidle)
    · exact hidle

theorem callEffect_slots {tm tm' : TaskManager} {queue queue' : TaskQueue}
    (h : CallEffect submitting tm queue holder tm' queue' holder') (hs : Slots pool holder) :
    Slots pool holder' := by
  cases h with
  | same | register => exact hs
  | beginEnqueue | beginRemove | beginCancel | markQueued | push | remove | cancelQueued
  | cancelRunning | refuseEnqueue | refuseCancel | «return» =>
    exact hs.rehold rfl (fun _ hw => by cases hw)

theorem loopEffect_slots (h : LoopEffect s evs u) (hs : Slots s.pool s.holder) :
    Slots u.pool u.holder := by
  cases h with
  | rest => exact hs
  | peek hfree _ _ => exact hs.rehold (by rw [hfree]; rfl) (fun _ hw => by cases hw)
  | giveUp hholder hphase =>
    refine hs.rehold ?_ (fun _ hw => by cases hw)
    rw [hholder]
    obtain ⟨_, _, _, rfl⟩ | ⟨_, _, rfl⟩ := hphase <;> rfl
  | spec hholder _ | acquire hholder _ | handler hholder _ | token hholder | pop hholder _
  | mark _ hholder _ _ =>
    exact hs.rehold (by rw [hholder]; rfl) (fun _ hw => by cases hw)
  | choose hholder => exact hs.rehold (by rw [hholder]; rfl) (by rw [hholder]; exact fun _ hw => hw)
  | skip hholder =>
    exact hs.rehold (by rw [hholder]; rfl)
      (by rw [hholder]; exact fun _ hw => List.mem_cons_of_mem _ hw)
  | select hholder _ =>
    refine hs.rehold (by rw [hholder]; rfl) ?_
    rw [hholder]
    intro w hw
    obtain rfl := List.mem_singleton.mp hw
    exact List.mem_cons_self
  | observe idle' hholder hidle =>
    refine ⟨hs.wellFormed, hs.listed, ?_, ?_⟩
    · intro w
      have hown := hs.reserved w
      rw [hholder] at hown
      exact hown
    · intro w hw
      have hold := hs.observed w
      rw [hholder] at hold
      obtain rfl | ⟨rfl, hmem, hi⟩ := hidle
      · exact hold hw
      · obtain hw | hw := List.mem_append.mp hw
        · exact hold hw
        · obtain rfl := List.mem_singleton.mp hw
          exact ⟨hmem, hi⟩
  | @reserve p hholder hstarted hidle =>
    refine ⟨?_, ?_, ?_, fun _ hw => by cases hw⟩
    · intro w
      simp only [State.setTry, State.setWorker, WorkerPool.workers_set]
      split
      · exact (hs.wellFormed p.worker).reserved hstarted hidle
      · exact hs.wellFormed w
    · intro w hw
      simp only [State.setTry, State.setWorker, WorkerPool.workers_set] at hw
      split at hw
      · rename_i he
        exact he ▸ hs.listed p.worker hw
      · exact hs.listed w hw
    · intro w
      have hnone := hs.reserved w
      rw [hholder] at hnone
      simp only [State.setTry, State.setWorker, WorkerPool.workers_set, Holder.reserved?]
      split
      · rename_i he
        simp [he]
      · rename_i hne
        rw [hnone]
        simp [Holder.reserved?, Ne.symm hne]
  | @dispatch p work hholder hstarted hstopping hreserved hmailbox =>
    refine ⟨?_, ?_, ?_, fun _ hw => by cases hw⟩
    · intro w
      simp only [State.tryReturns, State.setWorker, WorkerPool.workers_set]
      split
      · exact (hs.wellFormed p.worker).dispatched hstarted hstopping hreserved work
      · exact hs.wellFormed w
    · intro w hw
      simp only [State.tryReturns, State.setWorker, WorkerPool.workers_set] at hw
      split at hw
      · rename_i he
        exact he ▸ hs.listed p.worker hw
      · exact hs.listed w hw
    · intro w
      have hown := hs.reserved w
      rw [hholder] at hown
      simp only [State.tryReturns, State.setWorker, WorkerPool.workers_set, Holder.reserved?]
      split
      · simp
      · rename_i hne
        rw [hown]
        simp [Holder.reserved?, Ne.symm hne]

/-- A thread that stays in its part of the loop. -/
theorem Slots.setThread (h : Slots pool holder) {w : WorkerID} {thread : Thread}
    (he : thread.engaged = (pool.workers w).thread.engaged)
    (hon : (pool.workers w).thread ≠ .off) (hoff : thread ≠ .off) (hexit : thread ≠ .exited) :
    Slots (pool.set w ((pool.workers w).setThread thread)) holder :=
  h.set ((h.wellFormed w).setThread he hon hoff hexit) id Iff.rfl id

theorem threadEffect_slots {w : WorkerID} (h : ThreadEffect s w evs u)
    (hs : Slots s.pool s.holder) : Slots u.pool u.holder := by
  have hwf : (s.worker w).WellFormed := hs.wellFormed w
  have move : ∀ {before after : Thread}, (s.worker w).thread = before →
      after.engaged = before.engaged → before ≠ .off → after ≠ .off → after ≠ .exited →
      Slots (s.pool.set w ((s.worker w).setThread after)) s.holder := by
    intro before after hbefore he hon hoff hexit
    rw [← hbefore] at he hon
    exact hs.setThread he hon hoff hexit
  cases h with
  | take hthread hmailbox =>
    refine hs.set (hwf.take ?_) id Iff.rfl id
    simp [Worker.take, hthread, hmailbox]
  | leave hthread hmailbox hstopping =>
    refine hs.set (hwf.take ?_) id Iff.rfl id
    simp [Worker.take, hthread, hmailbox, hstopping]
  | markRunning hthread _ _ | invoke hthread | leaveHandler _ hthread | reported hthread
  | erase hthread _ _ | eraseNone hthread _ _ | release hthread | wake _ hthread
  | announce hthread =>
    exact move hthread rfl (by simp) (by simp) (by simp)
  | complete thread hthread _ _ hnext =>
    obtain rfl | ⟨completion, -, rfl⟩ := hnext
    · exact move hthread rfl (by simp) (by simp) (by simp)
    · exact move hthread rfl (by simp) (by simp) (by simp)
  | becomeIdle hthread =>
    have hengaged : (s.worker w).thread.engaged = true := by
      rw [hthread]
      rfl
    refine hs.set (hwf.becomeIdle hengaged) id ?_ (fun _ => rfl)
    constructor
    · intro he
      cases he
    · intro (he : (s.worker w).state = .reserved)
      have := (hwf.free (by simp [he])).2
      rw [hengaged] at this
      cases this

/-- No worker is reserved while the scheduler thread is not running. -/
theorem Stage.not_reserved (h : Stage s) (hloop : s.loop.alive = false) (w : WorkerID) :
    Holder.reserved? s.holder ≠ some w := by
  intro he
  cases hh : s.holder with
  | none =>
    rw [hh] at he
    cases he
  | some holder =>
    cases holder with
    | scheduling phase =>
      rw [h.scheduling phase hh] at hloop
      cases hloop
    | _ =>
      rw [hh] at he
      cases he

theorem slots_start (hs : Slots pool holder) : Slots pool.start.2 holder := by
  simp only [WorkerPool.start]
  split
  · exact hs
  · have hstate : ∀ w, (if w ∈ pool.workerIds then (pool.workers w).start
        else pool.workers w).state = (pool.workers w).state := by
      intro w
      split
      · simp only [Worker.start]
        split <;> rfl
      · rfl
    refine ⟨?_, ?_, fun w => by rw [hstate]; exact hs.reserved w, fun w hw => ?_⟩
    · intro w
      show (if w ∈ pool.workerIds then (pool.workers w).start else pool.workers w).WellFormed
      split
      · exact (hs.wellFormed w).start
      · exact hs.wellFormed w
    · intro w hw
      simp only at hw
      split at hw
      · assumption
      · exact hs.listed w hw
    · obtain ⟨hmem, hidle⟩ := hs.observed w hw
      exact ⟨hmem, by rw [hstate]; exact hidle⟩

/-- Starting the pool gives no worker an item. -/
theorem item?_start (hs : Slots pool holder) (w : WorkerID) :
    (pool.start.2.workers w).item? = (pool.workers w).item? := by
  have hitem : (pool.workers w).start.item? = (pool.workers w).item? := by
    cases hw : (pool.workers w).started with
    | true => simp [Worker.start, hw]
    | false =>
      have hoff := ((hs.wellFormed w).down hw).2
      simp [Worker.start, hw, Worker.item?, hoff, Thread.item?]
  simp only [WorkerPool.start]
  split
  · rfl
  · by_cases hw : w ∈ pool.workerIds
    · simp only [hw, if_true, hitem]
    · simp only [hw, if_false]

theorem poolsEffect_slots {rm : ResourceManager} (h : PoolsEffect s rm pool) (hst : Stage s)
    (hs : Slots s.pool s.holder) : Slots pool s.holder := by
  cases h with
  | same | register => exact hs
  | startPool => exact slots_start hs
  | closePool => exact ⟨hs.wellFormed, hs.listed, hs.reserved, hs.observed⟩
  | requestStop w => exact hs.set (hs.wellFormed w).requestStop id Iff.rfl id
  | @reset w hexited hloop =>
    refine hs.set (.reset (s.worker w)) (fun h => by cases h) ?_ (fun _ => rfl)
    constructor
    · intro he
      cases he
    · intro he
      exact absurd ((hs.reserved w).mp he) (hst.not_reserved hloop w)

end LocalSystem

end AgentRuntime
