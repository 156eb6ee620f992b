import AgentRuntime.Local.LocalSystem

/-!
# What runs at which stage

`Start` starts the workers before the scheduler thread, and `Shutdown` joins
the scheduler thread before it stops the workers. So whenever the scheduler
thread is in `TryScheduleOne`, the pool and all of its workers are up.
-/
namespace AgentRuntime

namespace LocalSystem

/-- The scheduler thread has been started and has not left `Run`. -/
def LoopPhase.alive : LoopPhase → Bool
  | .atWait | .looping | .entering => true
  | .off | .exited => false

/-- `lifecycle_mu_` is held by `Start`. -/
def LifecycleHolder.isStart : Option LifecycleHolder → Bool
  | some .startingPool | some .startingScheduler | some .opening => true
  | _ => false

/-- `Shutdown` has joined the scheduler thread. -/
def ControlPhase.pastJoin : ControlPhase → Bool
  | .loopJoined | .closingPool | .stoppingWorkers _ | .joiningWorker _ _ | .resettingWorker _ _
  | .publishing => true
  | _ => false

/-- `WorkerPool::Shutdown` is past its own section. -/
def ControlPhase.poolClosed : ControlPhase → Bool
  | .stoppingWorkers _ | .joiningWorker _ _ | .resettingWorker _ _ => true
  | _ => false

/-- The workers that `WorkerPool::Shutdown` has still to shut down. -/
def ControlPhase.toStop : ControlPhase → List WorkerID
  | .stoppingWorkers rest => rest
  | .joiningWorker w rest | .resettingWorker w rest => w :: rest
  | _ => []

structure Stage (s : State) : Prop where
  loop_pool : s.loop.alive = true → s.pool.started = true
  loop_started : s.loop.alive = true → s.started = true
  pool_workers : s.pool.started = true → ∀ w ∈ s.pool.workerIds,
    (s.worker w).started = true ∧ (s.worker w).stopping = false
  pool_down : s.pool.started = false → ∀ w ∈ s.pool.workerIds, w ∉ s.control.toStop →
    (s.worker w).started = false
  scheduling : ∀ phase, s.holder = some (.scheduling phase) → s.loop = .entering
  starting : LifecycleHolder.isStart s.lifecycle = true → s.control = .off
  scheduler_start : s.lifecycle = some .startingScheduler → s.pool.started = true
  past_join : s.control.pastJoin = true → s.loop.alive = false
  pool_closed : s.control.poolClosed = true → s.pool.started = false
  joined : ∀ w rest, s.control = .resettingWorker w rest → (s.worker w).thread = .exited

theorem stage_initial (workerIds : List WorkerID) (capacity : ResourceSet) (callback : Bool) :
    Stage (.initial workerIds capacity callback) where
  loop_pool h := by cases h
  loop_started h := by cases h
  pool_workers h := by cases h
  pool_down _ _ _ _ := rfl
  scheduling _ h := by cases h
  starting h := by cases h
  scheduler_start h := by cases h
  past_join h := by cases h
  pool_closed h := by cases h
  joined _ _ h := by cases h

variable {s u : State}

/-- A step that starts and stops nothing keeps the stage. -/
theorem Stage.frame (h : Stage s) (hpool : u.pool.started = s.pool.started)
    (hids : u.pool.workerIds = s.pool.workerIds)
    (hworkers : ∀ w, (u.worker w).started = (s.worker w).started ∧
      (u.worker w).stopping = (s.worker w).stopping)
    (hexited : ∀ w, (s.worker w).thread = .exited → (u.worker w).thread = .exited)
    (hstarted : u.started = s.started) (hcontrol : u.control = s.control)
    (hlife : u.lifecycle = s.lifecycle ∨ LifecycleHolder.isStart u.lifecycle = false)
    (hloop : u.loop.alive = true → s.loop.alive = true)
    (hsched : ∀ phase, u.holder = some (.scheduling phase) → u.loop = .entering) : Stage u where
  loop_pool ha := by
    rw [hpool]
    exact h.loop_pool (hloop ha)
  loop_started ha := by
    rw [hstarted]
    exact h.loop_started (hloop ha)
  pool_workers hp w hw := by
    rw [hpool] at hp
    rw [hids] at hw
    rw [(hworkers w).1, (hworkers w).2]
    exact h.pool_workers hp w hw
  pool_down hp w hw hstop := by
    rw [hpool] at hp
    rw [hids] at hw
    rw [hcontrol] at hstop
    rw [(hworkers w).1]
    exact h.pool_down hp w hw hstop
  scheduling := hsched
  starting hs := by
    rw [hcontrol]
    obtain he | hno := hlife
    · rw [he] at hs
      exact h.starting hs
    · rw [hno] at hs
      cases hs
  scheduler_start hs := by
    rw [hpool]
    obtain he | hno := hlife
    · exact h.scheduler_start (he ▸ hs)
    · rw [hs] at hno
      cases hno
  past_join hp := by
    rw [hcontrol] at hp
    have := h.past_join hp
    cases ha : u.loop.alive with
    | false => rfl
    | true => rw [hloop ha] at this; cases this
  pool_closed hp := by
    rw [hcontrol] at hp
    rw [hpool]
    exact h.pool_closed hp
  joined w rest hc := by
    rw [hcontrol] at hc
    exact hexited w (h.joined w rest hc)

/-! ## Start and Shutdown -/

/-- While `Start` holds `lifecycle_mu_` no `Shutdown` is in progress. -/
theorem Stage.control_off (h : Stage s) {holder : LifecycleHolder}
    (hl : s.lifecycle = some holder) (hs : LifecycleHolder.isStart (some holder) = true) :
    s.control = .off := h.starting (by rw [hl]; exact hs)

/-- While `Shutdown` is in progress `Start` is not. -/
theorem Stage.not_starting (h : Stage s) (hc : s.control ≠ .off) :
    LifecycleHolder.isStart s.lifecycle = false := by
  cases hs : LifecycleHolder.isStart s.lifecycle with
  | false => rfl
  | true => exact absurd (h.starting hs) hc

/-- `Shutdown` moves on, without an effect on the pool or on the scheduler thread. -/
theorem Stage.advance (h : Stage s) (control : ControlPhase) (hc : s.control ≠ .off)
    (hstop : ∀ w ∈ s.pool.workerIds, w ∈ s.control.toStop → w ∉ control.toStop →
      (s.worker w).started = false)
    (hjoin : control.pastJoin = true → s.loop.alive = false)
    (hclosed : control.poolClosed = true → s.pool.started = false)
    (hjoined : ∀ w rest, control = .resettingWorker w rest → (s.worker w).thread = .exited) :
    Stage { s with control := control } :=
  { h with
    pool_down := by
      intro hp w hw hnot
      by_cases hmem : w ∈ s.control.toStop
      · exact hstop w hw hmem hnot
      · exact h.pool_down hp w hw hmem
    starting := by
      intro hs
      rw [h.not_starting hc] at hs
      cases hs
    past_join := hjoin
    pool_closed := hclosed
    joined := hjoined }

theorem stage_startPool (h : Stage s) (hl : s.lifecycle = some .startingPool) :
    Stage (startPool s) := by
  have hoff := h.control_off hl rfl
  have hok : s.pool.start.1 = .OK := by
    simp only [WorkerPool.start]
    split <;> rfl
  have hstarted : s.pool.start.2.started = true := by
    simp only [WorkerPool.start]
    split
    · assumption
    · rfl
  have hids : s.pool.start.2.workerIds = s.pool.workerIds := by
    simp only [WorkerPool.start]
    split <;> rfl
  have hworkers : ∀ w ∈ s.pool.workerIds, (s.pool.start.2.workers w).started = true ∧
      (s.pool.start.2.workers w).stopping = false := by
    intro w hw
    cases hp : s.pool.started with
    | true =>
      simp only [WorkerPool.start, hp, if_true]
      exact h.pool_workers hp w hw
    | false =>
      have := h.pool_down hp w hw (by simp [hoff, ControlPhase.toStop])
      simp only [State.worker] at this
      simp [WorkerPool.start, hp, hw, Worker.start, this]
  exact {
    loop_pool := fun _ => hstarted
    loop_started := h.loop_started
    pool_workers := fun _ w hw => hworkers w (hids ▸ hw)
    pool_down := fun hp => by
      rw [show (startPool s).pool.started = true from hstarted] at hp
      cases hp
    scheduling := h.scheduling
    starting := fun _ => hoff
    scheduler_start := fun _ => hstarted
    past_join := h.past_join
    pool_closed := fun hc => by
      rw [show (startPool s).control = .off from hoff] at hc
      cases hc
    joined := fun w rest hc => by
      rw [show (startPool s).control = .off from hoff] at hc
      cases hc }

theorem stage_startScheduler (h : Stage s) (hl : s.lifecycle = some .startingScheduler)
    (hfree : s.holder = none) : Stage (startScheduler s) := by
  have hoff := h.control_off hl rfl
  simp only [startScheduler]
  split
  · exact { h with
      starting := fun _ => hoff
      scheduler_start := fun hs => by cases hs }
  · exact { h with
      loop_pool := fun _ => h.scheduler_start hl
      loop_started := fun _ => rfl
      scheduling := fun phase hp => by rw [hfree] at hp; cases hp
      starting := fun _ => hoff
      scheduler_start := fun hs => by cases hs
      past_join := fun hp => by rw [hoff] at hp; cases hp }

theorem stage_startBegin (h : Stage s) (hoff : s.control = .off) :
    Stage (startBegin s) := by
  simp only [startBegin]
  split
  · exact h
  · split
    · exact { h with
        starting := fun _ => hoff
        scheduler_start := fun hs => by cases hs }
    · split
      · exact { h with
          starting := fun _ => hoff
          scheduler_start := fun hs => by cases hs }
      · exact { h with }

theorem stage_shutdownWait (h : Stage s) (hc : s.control ≠ .off)
    (hstop : s.control.toStop = []) : Stage (shutdownWait s) := by
  have advance := fun control hj hp hjoined => h.advance control hc
    (fun w _ hw => by simp [hstop] at hw) hj hp hjoined
  simp only [shutdownWait]
  split
  · exact advance _ (fun hp => by cases hp) (fun hp => by cases hp) (fun _ _ hp => by cases hp)
  · exact { advance .waitingDrain (fun hp => by cases hp) (fun hp => by cases hp)
      (fun _ _ hp => by cases hp) with }

theorem stage_shutdownPool (h : Stage s) (hc : s.control = .closingPool) :
    Stage (shutdownPool s) := by
  have hdead := h.past_join (by rw [hc]; rfl)
  have hnot := h.not_starting (by simp [hc])
  simp only [shutdownPool]
  split
  · exact { h with
      loop_pool := fun ha => by rw [show s.loop.alive = true from ha] at hdead; cases hdead
      pool_workers := fun hp => by cases hp
      pool_down := fun _ w hw hstop => absurd hw hstop
      starting := fun hs => by rw [show _ = true from hs] at hnot; cases hnot
      scheduler_start := fun hs => by rw [show s.lifecycle = _ from hs] at hnot; cases hnot
      past_join := fun _ => hdead
      pool_closed := fun _ => rfl
      joined := fun w rest hp => by cases hp }
  · exact h.advance _ (by simp [hc]) (fun w _ hw => by simp [hc, ControlPhase.toStop] at hw)
      (fun _ => hdead) (fun hp => by cases hp) (fun _ _ hp => by cases hp)

/-- `Worker::Shutdown` writes to one worker while the pool is closed. -/
theorem Stage.stopOne (h : Stage s) (hc : s.control.poolClosed = true) {w : WorkerID}
    {worker : Worker} {control : ControlPhase} (hnot : ∀ w rest, control ≠ .resettingWorker w rest)
    (hdown : ∀ w' ∈ s.pool.workerIds, w' ∉ control.toStop →
      (if w' = w then worker else s.worker w').started = false) :
    Stage { s.setWorker w worker with control := control } := by
  have hp := h.pool_closed hc
  have hpast : s.control.pastJoin = true := by
    cases hk : s.control with
    | stoppingWorkers _ | joiningWorker _ _ | resettingWorker _ _ => rfl
    | _ => rw [hk] at hc; cases hc
  have hon : s.control ≠ .off := by
    intro he
    rw [he] at hc
    cases hc
  exact { h with
    pool_workers := fun hp' => by rw [show s.pool.started = true from hp'] at hp; cases hp
    pool_down := fun _ w' hw' hmem => hdown w' hw' hmem
    starting := fun hs => absurd (h.starting hs) hon
    past_join := fun _ => h.past_join hpast
    pool_closed := fun _ => hp
    joined := fun w rest he => absurd he (hnot w rest) }

theorem stage_shutdownWorker {rest : List WorkerID} (h : Stage s)
    (hc : s.control = .stoppingWorkers rest) : Stage (shutdownWorker s rest) := by
  have hp := h.pool_closed (by rw [hc]; rfl)
  have hdead := h.past_join (by rw [hc]; rfl)
  cases rest with
  | nil =>
    exact h.advance _ (by simp [hc]) (fun w _ hw => by simp [hc, ControlPhase.toStop] at hw)
      (fun _ => hdead) (fun hp => by cases hp) (fun _ _ hp => by cases hp)
  | cons w rest =>
    simp only [shutdownWorker]
    split
    · refine h.stopOne (by rw [hc]; rfl) (fun _ _ he => by cases he) ?_
      intro w' hw' hmem
      have hne : w' ≠ w := fun he => hmem (by simp [he, ControlPhase.toStop])
      rw [if_neg hne]
      exact h.pool_down hp w' hw' (by rw [hc]; exact hmem)
    · rename_i hdown
      refine h.advance _ (by simp [hc]) ?_ (fun _ => hdead) (fun _ => hp)
        (fun _ _ hp => by cases hp)
      intro w' _ hmem hnot
      rw [hc] at hmem
      obtain rfl | hrest := List.mem_cons.mp hmem
      · simpa using hdown
      · exact absurd hrest hnot

theorem stage_shutdownReset {w : WorkerID} {rest : List WorkerID} (h : Stage s)
    (hc : s.control = .resettingWorker w rest) :
    Stage { s.setWorker w (s.worker w).reset with control := .stoppingWorkers rest } := by
  refine h.stopOne (by rw [hc]; rfl) (fun _ _ he => by cases he) ?_
  intro w' hw' hmem
  split
  · rfl
  · rename_i hne
    refine h.pool_down (h.pool_closed (by rw [hc]; rfl)) w' hw' ?_
    rw [hc]
    simp only [ControlPhase.toStop, List.mem_cons, not_or]
    exact ⟨hne, hmem⟩

theorem lifecycleStep_stage {a : LifecycleAction} (h : lifecycleStep s a = some u)
    (hs : Stage s) : Stage u := by
  cases a with
  | startBegin =>
    simp only [lifecycleStep] at h
    split at h
    · rename_i hl hoff
      cases h
      exact stage_startBegin hs hoff
    · cases h
  | startPool =>
    simp only [lifecycleStep] at h
    split at h
    · rename_i hl
      cases h
      exact stage_startPool hs hl
    · cases h
  | startScheduler =>
    simp only [lifecycleStep] at h
    split at h
    · rename_i hl hfree
      cases h
      exact stage_startScheduler hs hl hfree
    · cases h
  | startOpen =>
    simp only [lifecycleStep] at h
    split at h
    · cases h
      exact { hs with
        starting := fun h => by cases h
        scheduler_start := fun h => by cases h }
    · cases h
  | shutdownBegin =>
    simp only [lifecycleStep] at h
    split at h
    · rename_i hl hoff
      split at h
      · cases h
        exact { hs with
          pool_down := fun hp w hw _ => hs.pool_down hp w hw (by simp [hoff, ControlPhase.toStop])
          starting := fun h => by rw [show s.lifecycle = none from hl] at h; cases h
          past_join := fun h => by cases h
          pool_closed := fun h => by cases h
          joined := fun _ _ h => by cases h }
      · cases h
        exact hs
    · cases h
  | shutdownDrain =>
    simp only [lifecycleStep] at h
    split at h
    · rename_i hc _
      split at h
      · cases h
        exact stage_shutdownWait hs (by simp [hc]) (by simp [hc, ControlPhase.toStop])
      · cases h
        exact hs.advance _ (by simp [hc]) (fun w _ hw => by simp [hc, ControlPhase.toStop] at hw)
          (fun hp => by cases hp) (fun hp => by cases hp) (fun _ _ hp => by cases hp)
    · cases h
  | shutdownDrained =>
    simp only [lifecycleStep] at h
    split at h
    · rename_i hc _
      split at h
      · cases h
      · cases h
        exact stage_shutdownWait hs (by simp [hc]) (by simp [hc, ControlPhase.toStop])
    · cases h
  | shutdownStop =>
    simp only [lifecycleStep] at h
    split at h
    · rename_i hc _
      cases h
      have advance := fun control hj hp hjoined => hs.advance control (by simp [hc])
        (fun w _ hw => by simp [hc, ControlPhase.toStop] at hw) hj hp hjoined
      simp only [shutdownStop]
      split
      · exact { advance .notifying (fun hp => by cases hp) (fun hp => by cases hp)
          (fun _ _ hp => by cases hp) with }
      · rename_i hstopped
        refine advance .closingPool (fun _ => ?_) (fun hp => by cases hp) (fun _ _ hp => by cases hp)
        cases ha : s.loop.alive with
        | false => rfl
        | true => exact absurd (hs.loop_started ha) hstopped
    · cases h
  | shutdownNotify woken =>
    simp only [lifecycleStep] at h
    split at h
    · rename_i hc
      obtain ⟨sleeping, -, rfl⟩ := Option.map_eq_some_iff.mp h
      exact { hs.advance .joiningLoop (by simp [hc])
        (fun w _ hw => by simp [hc, ControlPhase.toStop] at hw) (fun hp => by cases hp)
        (fun hp => by cases hp) (fun _ _ hp => by cases hp) with }
    · cases h
  | shutdownJoin =>
    simp only [lifecycleStep] at h
    split at h
    · rename_i hc
      split at h
      · rename_i hjoin
        cases h
        have hnot := hs.not_starting (by simp [hc])
        exact { hs with
          loop_pool := fun ha => by cases ha
          loop_started := fun ha => by cases ha
          pool_down := fun hp w hw _ => hs.pool_down hp w hw (by simp [hc, ControlPhase.toStop])
          scheduling := fun phase hp => by
            rw [hs.scheduling phase hp] at hjoin
            simp at hjoin
          starting := fun h => by rw [show _ = true from h] at hnot; cases hnot
          past_join := fun _ => rfl
          pool_closed := fun h => by cases h
          joined := fun _ _ h => by cases h }
      · cases h
    · cases h
  | shutdownStopped =>
    simp only [lifecycleStep] at h
    split at h
    · rename_i hc _
      cases h
      have hdead := hs.past_join (by rw [hc]; rfl)
      exact { hs.advance .closingPool (by simp [hc])
          (fun w _ hw => by simp [hc, ControlPhase.toStop] at hw) (fun _ => hdead)
          (fun hp => by cases hp) (fun _ _ hp => by cases hp) with
        loop_started := fun ha => by rw [show s.loop.alive = true from ha] at hdead; cases hdead }
    · cases h
  | shutdownPool =>
    simp only [lifecycleStep] at h
    split at h
    · rename_i hc
      cases h
      exact stage_shutdownPool hs hc
    · cases h
  | shutdownWorker =>
    simp only [lifecycleStep] at h
    split at h
    · rename_i rest hc
      cases h
      exact stage_shutdownWorker hs hc
    · cases h
  | shutdownJoinWorker =>
    simp only [lifecycleStep] at h
    split at h
    · rename_i w rest hc
      split at h
      · rename_i hexited
        cases h
        refine hs.advance _ (by simp [hc]) ?_ (fun _ => hs.past_join (by rw [hc]; rfl))
          (fun _ => hs.pool_closed (by rw [hc]; rfl)) ?_
        · intro w' _ hmem hnot
          rw [hc] at hmem
          exact absurd hmem hnot
        · intro w' rest' he
          cases he
          exact hexited
      · cases h
    · cases h
  | shutdownReset =>
    simp only [lifecycleStep] at h
    split at h
    · rename_i w rest hc
      cases h
      exact stage_shutdownReset hs hc
    · cases h
  | shutdownPublish =>
    simp only [lifecycleStep] at h
    split at h
    · rename_i hc hl
      cases h
      have := hs.advance .off (by simp [hc])
        (fun w _ hw => by simp [hc, ControlPhase.toStop] at hw) (fun hp => by cases hp)
        (fun hp => by cases hp) (fun _ _ hp => by cases hp)
      exact { this with }
    · cases h

end LocalSystem

end AgentRuntime
