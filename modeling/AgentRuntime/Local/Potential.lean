import AgentRuntime.Local.Progress
import Mathlib.Algebra.Order.BigOperators.Group.Finset

/-!
# The local runtime comes to rest

Each step that a thread takes by itself uses up a potential: a queued task pays
for its dispatch, an item in a mailbox for its execution, and a worker for the
rounds of the scheduler that its idle callback asks for. So a runtime to which no
call comes, and whose handlers return, has only finitely many steps left.
-/
namespace AgentRuntime

namespace LocalSystem

/-! ## What each place costs -/

/-- One round of the loop of `Run` over the workers, without a dispatch. -/
def roundCost (n : Nat) : Nat := 2 * n + 12

/-- An item in a mailbox, until its worker waits again. -/
def itemCost (n : Nat) : Nat := roundCost n + 13

/-- A queued task: its dispatch starts another round. -/
def taskCost (n : Nat) : Nat := roundCost n + itemCost n

def LoopPhase.cost (n : Nat) : LoopPhase → Nat
  | .off | .exited => 0
  | .atWait => 1
  | .looping => roundCost n
  | .entering => 2 * n + 11

def TryPhase.cost (n : Nat) : TryPhase → Nat
  | .fetchingSpec _ => 2 * n + 10
  | .observing _ _ rest idle => 2 * rest.length + idle.length + 9
  | .selecting _ _ rest => rest.length + 8
  | .reserving _ => 7
  | .acquiring _ => 6
  | .fetchingHandler _ => 5
  | .fetchingToken _ _ => 4
  | .popping _ _ _ => 3
  | .marking _ _ _ => taskCost n + 2
  | .dispatching _ _ => taskCost n + 1
  | .undoRelease _ | .undoReserve _ => 0

/-- The scheduler thread, inside `TryScheduleOne` or not. -/
def schedulerCost (n : Nat) (loop : LoopPhase) : Option Holder → Nat
  | some (.scheduling phase) => phase.cost n
  | _ => loop.cost n

/-- A call that holds `Scheduler::mu_`. -/
def callCost (n : Nat) : Option Holder → Nat
  | some (.enqueueMark _ _) => taskCost n + roundCost n + 3
  | some (.enqueuePush _ _) => taskCost n + roundCost n + 2
  | some (.cancelRemove _ _) => roundCost n + 4
  | some (.cancelTask _ _ _) => roundCost n + 3
  | some (.cancelReport _ _ _) => roundCost n + 2
  | some (.scheduling _) | none => 0

def LifecycleHolder.cost (n : Nat) : Option LifecycleHolder → Nat
  | some (.registering _ _ _) => taskCost n + roundCost n + 5
  | some (.enqueuing _ _) => taskCost n + roundCost n + 4
  | some .inEnqueue | none => 0
  | some .startingPool => n + roundCost n + 4
  | some .startingScheduler => roundCost n + 3
  | some .opening => 1

def ControlPhase.cost (n : Nat) : ControlPhase → Nat
  | .off => 0
  | .draining => 3 * n + roundCost n + 11
  | .waitingDrain => 3 * n + roundCost n + 10
  | .stoppingScheduler => 3 * n + roundCost n + 8
  | .notifying => 3 * n + 7
  | .joiningLoop => 3 * n + 5
  | .loopJoined => 3 * n + 4
  | .closingPool => 3 * n + 3
  | .stoppingWorkers rest => 3 * rest.length + 2
  | .joiningWorker _ rest => 3 * rest.length + 4
  | .resettingWorker _ rest => 3 * rest.length + 3
  | .publishing => 1

def threadCost (n : Nat) : Thread → Nat
  | .off | .exited => 0
  | .waiting => 1
  | .announcing => 4
  | .waking => roundCost n + 5
  | .releasing _ => roundCost n + 6
  | .notifying => roundCost n + 7
  | .returning => roundCost n + 8
  | .reporting _ => roundCost n + 9
  | .finished _ _ => roundCost n + 10
  | .executing _ => roundCost n + 11
  | .marked _ => roundCost n + 12
  | .taken _ => roundCost n + 13

def workerCost (n : Nat) (worker : Worker) : Nat :=
  threadCost n worker.thread + if worker.mailbox.isSome then itemCost n else 0

def poolCost (n : Nat) (pool : WorkerPool) : Nat :=
  pool.workerIds.toFinset.sum (fun w => workerCost n (pool.workers w))

/-- A thread that does not sleep may fall asleep. -/
def awakeCost (waiter : Waiter) (sleeping : List Waiter) : Nat :=
  if waiter ∈ sleeping then 0 else 1

def sleepCost (sleeping : List Waiter) : Nat :=
  awakeCost .loop sleeping + awakeCost .shutdown sleeping

def queueCost (n : Nat) (queue : TaskQueue) : Nat := queue.length * taskCost n

def wakeCost (n : Nat) (wakeRequested : Bool) : Nat := if wakeRequested then roundCost n else 0

def potential (s : State) : Nat :=
  let n := s.pool.workerIds.length
  queueCost n s.queue + wakeCost n s.wakeRequested + sleepCost s.sleeping + poolCost n s.pool +
    schedulerCost n s.loop s.holder + callCost n s.holder + LifecycleHolder.cost n s.lifecycle +
    s.control.cost n

/-! ## How the parts change -/

variable {s u : State} {evs : List Event}

theorem queueCost_append (n : Nat) (queue : TaskQueue) (t : TaskID) :
    queueCost n (queue ++ [t]) = queueCost n queue + taskCost n := by
  simp [queueCost, Nat.add_mul]

theorem queueCost_cons (n : Nat) (t : TaskID) (rest : TaskQueue) :
    queueCost n (t :: rest) = queueCost n rest + taskCost n := by
  simp [queueCost, Nat.add_mul]

theorem queueCost_erase (n : Nat) (queue : TaskQueue) (t : TaskID) :
    queueCost n (queue.erase t) ≤ queueCost n queue :=
  Nat.mul_le_mul_right _ (List.length_erase_le)

theorem wakeCost_le (n : Nat) (wakeRequested : Bool) :
    wakeCost n wakeRequested ≤ roundCost n := by
  cases wakeRequested <;> simp [wakeCost]

theorem awakeCost_le (waiter : Waiter) (sleeping : List Waiter) :
    awakeCost waiter sleeping ≤ 1 := by
  simp only [awakeCost]
  split <;> omega

theorem sleepCost_le (sleeping : List Waiter) : sleepCost sleeping ≤ 2 := by
  have hloop := awakeCost_le .loop sleeping
  have hshutdown := awakeCost_le .shutdown sleeping
  simp only [sleepCost]
  omega

/-- At most one thread is woken. -/
theorem sleepCost_notifyOne {sleeping sleeping' : List Waiter} {woken : Option Waiter}
    (h : notifyOne sleeping woken = some sleeping') :
    sleepCost sleeping' ≤ sleepCost sleeping + 1 := by
  cases woken with
  | none =>
    simp only [notifyOne] at h
    split at h
    · rename_i hempty
      cases h
      rw [hempty]
      omega
    · cases h
  | some waiter =>
    have keeps : ∀ other ≠ waiter, awakeCost other sleeping' = awakeCost other sleeping := by
      intro other hne
      simp only [notifyOne] at h
      split at h
      · cases h
        simp only [awakeCost, List.mem_erase_of_ne hne]
      · cases h
    have hloop := awakeCost_le .loop sleeping'
    have hshutdown := awakeCost_le .shutdown sleeping'
    simp only [sleepCost]
    by_cases hw : waiter = .loop
    · rw [keeps .shutdown (by rw [hw]; simp)]
      omega
    · rw [keeps .loop (Ne.symm hw)]
      omega

/-- A thread falls asleep. -/
theorem sleepCost_cons {waiter : Waiter} {sleeping : List Waiter} (hawake : waiter ∉ sleeping)
    (hw : waiter = .loop ∨ waiter = .shutdown) :
    sleepCost (waiter :: sleeping) + 1 = sleepCost sleeping := by
  obtain rfl | rfl := hw
  · simp [sleepCost, awakeCost, hawake]
    omega
  · simp [sleepCost, awakeCost, hawake]

/-- A thread moves on, and the mailbox stays as it is. -/
theorem workerCost_setThread (n : Nat) (worker : Worker) (thread : Thread) :
    workerCost n (worker.setThread thread) + threadCost n worker.thread =
      workerCost n worker + threadCost n thread := by
  have hset : workerCost n (worker.setThread thread) =
      threadCost n thread + if worker.mailbox.isSome then itemCost n else 0 := rfl
  rw [hset, workerCost]
  omega

/-- One worker changes. -/
theorem poolCost_set (n : Nat) (pool : WorkerPool) {w : WorkerID} (hw : w ∈ pool.workerIds)
    (worker : Worker) :
    poolCost n (pool.set w worker) + workerCost n (pool.workers w) =
      poolCost n pool + workerCost n worker := by
  have hmem : w ∈ pool.workerIds.toFinset := List.mem_toFinset.mpr hw
  have hrest : ∀ f g : WorkerID → Nat, (∀ w' ≠ w, f w' = g w') →
      (pool.workerIds.toFinset.erase w).sum f = (pool.workerIds.toFinset.erase w).sum g :=
    fun f g hfg => Finset.sum_congr rfl (fun w' hw' => hfg w' (Finset.ne_of_mem_erase hw'))
  simp only [poolCost, WorkerPool.workerIds_set]
  rw [← Finset.add_sum_erase _ _ hmem, ← Finset.add_sum_erase _ (fun w => workerCost n
    (pool.workers w)) hmem, hrest _ (fun w => workerCost n (pool.workers w))]
  · simp only [WorkerPool.workers_set, if_true]
    omega
  · intro w' hne
    simp [WorkerPool.workers_set, hne]

/-! ## Each step uses some of it up -/

theorem callStep_potential {a : CallAction} (h : callStep s a = some u)
    (hown : (Action.call a).isOwn = true) (hd : Undrained s) : potential u < potential s := by
  cases callMove h with
  | refuseChecks | passChecks | notFound | beginRemove | beginCancel | drainRefused => cases hown
  | drained ha hfree | drainSleeps ha hfree =>
    obtain rfl | rfl := ha
    · cases hown
    · simp [callStep, hfree, hd _] at h
  | refuseRegister =>
    have hlife : ∃ k spec handler, s.lifecycle = some (.registering k spec handler) := by
      simp only [callStep] at h
      split at h
      · exact ⟨_, _, _, by assumption⟩
      · cases h
    obtain ⟨_, _, _, hlife⟩ := hlife
    simp only [potential, State.submitReturns, hlife, LifecycleHolder.cost]
    omega
  | register _ hlife =>
    simp only [potential, hlife, LifecycleHolder.cost]
    omega
  | refuseEnqueue =>
    have hlife : ∃ k t, s.lifecycle = some (.enqueuing k t) := by
      simp only [callStep] at h
      split at h
      · exact ⟨_, _, by assumption⟩
      · cases h
    obtain ⟨_, _, hlife⟩ := hlife
    simp only [potential, State.submitReturns, hlife, LifecycleHolder.cost]
    omega
  | enterEnqueue hlife hfree =>
    simp only [potential, hlife, hfree, LifecycleHolder.cost, callCost, schedulerCost]
    omega
  | refuseMark _ _ hholder =>
    simp only [potential, State.submitReturns, hholder, LifecycleHolder.cost, callCost,
      schedulerCost]
    omega
  | markQueued _ hholder =>
    simp only [potential, hholder, callCost, schedulerCost]
    omega
  | push hholder hwoken =>
    have hsleep := sleepCost_notifyOne hwoken
    have hwake := wakeCost_le s.pool.workerIds.length true
    simp only [potential, enqueuePush, State.submitReturns, TaskQueue.push, queueCost_append,
      hholder, LifecycleHolder.cost, callCost, schedulerCost]
    omega
  | refuseRemove _ hholder =>
    simp only [potential, State.cancelReturns, hholder, callCost, schedulerCost]
    omega
  | @remove k t hholder hmem =>
    have hqueue := queueCost_erase s.pool.workerIds.length s.queue t
    simp only [potential, hholder, callCost, schedulerCost]
    omega
  | refuseCancel _ _ hholder =>
    simp only [potential, State.cancelReturns, hholder, callCost, schedulerCost]
    omega
  | cancel _ _ hholder =>
    simp only [potential, hholder, callCost, schedulerCost]
    omega
  | notify hholder hwoken =>
    have hsleep := sleepCost_notifyOne hwoken
    have hwake := wakeCost_le s.pool.workerIds.length true
    simp only [potential, State.cancelReturns, hholder, callCost, schedulerCost]
    omega
  | cancelled hholder =>
    simp only [potential, State.cancelReturns, hholder, callCost, schedulerCost]
    omega

/-- The scheduler thread outside `TryScheduleOne`. -/
theorem loopWait_potential (hloop : s.loop = .atWait) (hfree : s.holder = none)
    (hawake : .loop ∉ s.sleeping) : potential (loopWait s) < potential s := by
  simp only [loopWait]
  split
  · simp only [potential, hloop, hfree, schedulerCost, LoopPhase.cost]
    omega
  · split
    · rename_i hwake
      simp only [potential, hloop, hfree, hwake, schedulerCost, LoopPhase.cost, wakeCost, if_true,
        Bool.false_eq_true, if_false]
      omega
    · have hsleep := sleepCost_cons hawake (.inl rfl)
      simp only [potential]
      omega

theorem tryBegin_potential (hloop : s.loop = .entering) (hfree : s.holder = none) :
    potential (tryBegin s) < potential s := by
  simp only [tryBegin]
  split
  · simp only [potential, State.tryReturns, hloop, hfree, schedulerCost, LoopPhase.cost, callCost]
    simp
  · split
    · simp only [potential, State.tryReturns, hloop, hfree, schedulerCost, LoopPhase.cost, callCost]
      simp
    · simp only [potential, State.setTry, hloop, hfree, schedulerCost, LoopPhase.cost,
        TryPhase.cost, callCost]
      omega

theorem loopStep_potential {a : LoopAction} (h : loopStep s a = some u) (hi : Inv s) :
    potential u < potential s := by
  by_cases hfree : s.holder = none
  · cases a with
    | wait =>
      simp only [loopStep, hfree] at h
      split at h
      · rename_i hloop _
        split at h
        · cases h
        · rename_i hawake
          cases h
          exact loopWait_potential hloop hfree hawake
      · cases h
    | check =>
      simp only [loopStep, hfree] at h
      split at h
      · rename_i hloop _
        cases h
        cases s.stopping
        all_goals
          simp only [potential, hloop, hfree, schedulerCost, LoopPhase.cost, roundCost, if_true,
            Bool.false_eq_true, if_false]
          omega
      · cases h
    | tryBegin =>
      simp only [loopStep, hfree] at h
      split at h
      · rename_i hloop _
        cases h
        exact tryBegin_potential hloop hfree
      · cases h
    | trySpec | tryObserve | trySelect | tryReserve | tryAcquire | tryHandler | tryToken | tryPop
    | tryMark | tryDispatch | undoRelease | undoReserve => simp [loopStep, hfree] at h
  · have hunfailing := hi.unfailing
    have he := loopEffect h hunfailing
    generalize loopEvents s a = evs at he
    cases he with
    | rest _ _ _ hnone | peek hnone => exact absurd hnone hfree
    | spec hholder | skip hholder | handler hholder | token hholder | acquire hholder =>
      simp only [potential, State.setTry, hholder, schedulerCost, TryPhase.cost, callCost,
        List.length_nil, List.length_cons]
      omega
    | choose hholder | select hholder =>
      simp only [potential, State.setTry, hholder, schedulerCost, TryPhase.cost, callCost,
        List.length_nil]
      omega
    | @observe t spec w rest idle idle' hholder hidle =>
      have hle : idle'.length ≤ idle.length + 1 := by
        obtain rfl | ⟨rfl, -⟩ := hidle <;> simp
      simp only [potential, State.setTry, hholder, schedulerCost, TryPhase.cost, callCost,
        List.length_cons]
      omega
    | giveUp hholder hphase =>
      obtain ⟨_, _, _, rfl⟩ | ⟨_, _, rfl⟩ := hphase
      all_goals
        simp only [potential, State.tryReturns, hholder, schedulerCost, TryPhase.cost, callCost,
          LoopPhase.cost, Bool.false_eq_true, if_false]
        omega
    | @reserve p hholder =>
      obtain ⟨-, hmem, -⟩ := hunfailing.holder _ hholder
      have hpool := poolCost_set s.pool.workerIds.length s.pool hmem
        { s.worker p.worker with state := .reserved }
      have hsame : workerCost s.pool.workerIds.length { s.worker p.worker with state := .reserved } =
          workerCost s.pool.workerIds.length (s.pool.workers p.worker) := rfl
      rw [hsame] at hpool
      simp only [State.worker] at hpool
      simp only [potential, State.setTry, State.setWorker, State.worker, hholder, schedulerCost,
        TryPhase.cost, callCost, WorkerPool.workerIds_set]
      omega
    | @pop p handler token rest hholder hqueue =>
      have hcost := queueCost_cons s.pool.workerIds.length p.task rest
      simp only [potential, State.setTry, hholder, hqueue, schedulerCost, TryPhase.cost, callCost]
      omega
    | mark _ hholder =>
      simp only [potential, State.setTry, hholder, schedulerCost, TryPhase.cost, callCost]
      omega
    | @dispatch p work hholder _ _ _ hmailbox =>
      obtain ⟨-, hmem, -⟩ := hunfailing.holder _ hholder
      have hpool := poolCost_set s.pool.workerIds.length s.pool hmem
        { s.worker p.worker with mailbox := some work, state := .busy }
      simp only [State.worker] at hmailbox
      simp only [workerCost, State.worker, hmailbox, Option.isSome_some, Option.isSome_none,
        Bool.false_eq_true, if_true, if_false] at hpool
      simp only [potential, State.tryReturns, State.setWorker, State.worker, hholder,
        schedulerCost, TryPhase.cost, LoopPhase.cost, callCost, WorkerPool.workerIds_set, if_true,
        taskCost]
      omega

/-- The thread of one worker moves on. -/
theorem potential_of_worker {w : WorkerID} {worker : Worker} (hw : w ∈ s.pool.workerIds)
    (hpool : u.pool = s.pool.set w worker) (hqueue : u.queue = s.queue)
    (hholder : u.holder = s.holder) (hloop : u.loop = s.loop)
    (hlife : u.lifecycle = s.lifecycle) (hcontrol : u.control = s.control)
    (hcost : workerCost s.pool.workerIds.length worker +
        wakeCost s.pool.workerIds.length u.wakeRequested + sleepCost u.sleeping <
      workerCost s.pool.workerIds.length (s.worker w) +
        wakeCost s.pool.workerIds.length s.wakeRequested + sleepCost s.sleeping) :
    potential u < potential s := by
  have hset := poolCost_set s.pool.workerIds.length s.pool hw worker
  simp only [potential, hpool, hqueue, hholder, hloop, hlife, hcontrol, WorkerPool.workerIds_set]
  simp only [State.worker] at hcost
  omega

theorem potential_of_thread {w : WorkerID} {thread : Thread} (hw : w ∈ s.pool.workerIds)
    (hpool : u.pool = s.pool.set w ((s.worker w).setThread thread)) (hqueue : u.queue = s.queue)
    (hholder : u.holder = s.holder) (hloop : u.loop = s.loop)
    (hlife : u.lifecycle = s.lifecycle) (hcontrol : u.control = s.control)
    (hcost : threadCost s.pool.workerIds.length thread +
        wakeCost s.pool.workerIds.length u.wakeRequested + sleepCost u.sleeping <
      threadCost s.pool.workerIds.length (s.worker w).thread +
        wakeCost s.pool.workerIds.length s.wakeRequested + sleepCost s.sleeping) :
    potential u < potential s := by
  have hworker := workerCost_setThread s.pool.workerIds.length (s.worker w) thread
  refine potential_of_worker hw hpool hqueue hholder hloop hlife hcontrol ?_
  omega

theorem threadStep_potential {w : WorkerID} {a : ThreadAction} (h : threadStep s w a = some u)
    (hi : Inv s) : potential u < potential s := by
  have he := threadEffect h hi.unfailing
  generalize threadEvents s w a = evs at he
  have hmem : (s.worker w).thread ≠ .off → w ∈ s.pool.workerIds := hi.mem_of_thread
  cases he with
  | take hthread hmailbox =>
    refine potential_of_worker (hmem (by rw [hthread]; simp)) rfl rfl rfl rfl rfl rfl ?_
    simp only [State.setWorker, workerCost, hthread, hmailbox, threadCost, itemCost,
      Option.isSome_some, Option.isSome_none, Bool.false_eq_true, if_true, if_false]
    omega
  | leave hthread hmailbox =>
    refine potential_of_worker (hmem (by rw [hthread]; simp)) rfl rfl rfl rfl rfl rfl ?_
    simp only [State.setWorker, workerCost, hthread, threadCost]
    omega
  | becomeIdle hthread =>
    have hset := workerCost_setThread s.pool.workerIds.length (s.worker w) .notifying
    have hidle : workerCost s.pool.workerIds.length (s.worker w).becomeIdle =
        workerCost s.pool.workerIds.length ((s.worker w).setThread .notifying) := rfl
    refine potential_of_worker (hmem (by rw [hthread]; simp)) rfl rfl rfl rfl rfl rfl ?_
    rw [hthread] at hset
    simp only [State.setWorker, hidle, threadCost] at hset ⊢
    omega
  | markRunning hthread | invoke hthread | leaveHandler _ hthread | reported hthread
  | erase hthread | eraseNone hthread | release hthread =>
    refine potential_of_thread (hmem (by rw [hthread]; simp)) rfl rfl rfl rfl rfl rfl ?_
    simp only [State.setThread, State.setWorker, hthread, threadCost]
    omega
  | complete thread hthread _ _ hnext =>
    refine potential_of_thread (hmem (by rw [hthread]; simp)) rfl rfl rfl rfl rfl rfl ?_
    obtain rfl | ⟨_, -, rfl⟩ := hnext
    all_goals
      simp only [State.setThread, State.setWorker, hthread, threadCost]
      omega
  | wake wake hthread =>
    have hwake := wakeCost_le s.pool.workerIds.length wake
    refine potential_of_thread (hmem (by rw [hthread]; simp)) rfl rfl rfl rfl rfl rfl ?_
    simp only [State.setThread, State.setWorker, hthread, threadCost]
    omega
  | announce hthread =>
    have hsleep := sleepCost_le ([] : List Waiter)
    refine potential_of_thread (hmem (by rw [hthread]; simp)) rfl rfl rfl rfl rfl rfl ?_
    simp only [State.setThread, State.setWorker, hthread, threadCost]
    omega

/-- One worker changes, and it is not further from the end. -/
theorem poolCost_set_le (n : Nat) (pool : WorkerPool) {w : WorkerID} {worker : Worker}
    (h : workerCost n worker ≤ workerCost n (pool.workers w)) :
    poolCost n (pool.set w worker) ≤ poolCost n pool := by
  refine Finset.sum_le_sum (fun w' _ => ?_)
  rw [WorkerPool.workers_set]
  split
  · rename_i he
    rwa [he]
  · exact Nat.le_refl _

theorem schedulerCost_le {n : Nat} {loop loop' : LoopPhase} (h : loop.cost n ≤ loop'.cost n)
    (holder : Option Holder) : schedulerCost n loop holder ≤ schedulerCost n loop' holder := by
  simp only [schedulerCost]
  split
  · exact Nat.le_refl _
  · exact h

/-- Starting the pool makes each worker wait. -/
theorem poolCost_start (n : Nat) (hs : Slots s.pool s.holder) :
    poolCost n s.pool.start.2 ≤ poolCost n s.pool + s.pool.workerIds.length := by
  have hcard : s.pool.workerIds.toFinset.card ≤ s.pool.workerIds.length :=
    List.toFinset_card_le s.pool.workerIds
  simp only [WorkerPool.start]
  split
  · exact Nat.le_add_right _ _
  · have hsum : s.pool.workerIds.toFinset.sum (fun w => workerCost n
          (if w ∈ s.pool.workerIds then (s.pool.workers w).start else s.pool.workers w)) ≤
        s.pool.workerIds.toFinset.sum (fun w => workerCost n (s.pool.workers w) + 1) := by
      refine Finset.sum_le_sum (fun w hw => ?_)
      rw [if_pos (List.mem_toFinset.mp hw)]
      simp only [Worker.start]
      split
      · exact Nat.le_add_right _ _
      · rename_i hdown
        have hoff := ((hs.wellFormed w).down (by simpa using hdown)).2
        simp only [workerCost, hoff, threadCost]
        omega
    rw [Finset.sum_add_distrib, ← Finset.card_eq_sum_ones] at hsum
    exact hsum.trans (Nat.add_le_add_left hcard _)

theorem lifecycleStep_potential {a : LifecycleAction} (h : lifecycleStep s a = some u)
    (hown : (Action.lifecycle a).isOwn = true) (hi : Inv s) (hs : Asleep s) :
    potential u < potential s := by
  cases lifecycleMove h with
  | ignored _ hlife hoff =>
    cases a with
    | startBegin | shutdownBegin => cases hown
    | startPool | startScheduler | startOpen | shutdownDrain | shutdownDrained | shutdownStop
    | shutdownNotify | shutdownJoin | shutdownStopped | shutdownPool | shutdownWorker
    | shutdownJoinWorker | shutdownReset | shutdownPublish =>
      simp [lifecycleStep, hlife, hoff] at h
  | startBegin | shutdownBegin => cases hown
  | startPool hlife hnext =>
    have hpool := poolCost_start s.pool.workerIds.length hi.slots
    have hids : s.pool.start.2.workerIds = s.pool.workerIds := by
      simp only [WorkerPool.start]
      split <;> rfl
    obtain rfl | rfl := hnext
    all_goals
      simp only [potential, hids, hlife, LifecycleHolder.cost]
      omega
  | startScheduler hlife hfree =>
    have hwake := wakeCost_le s.pool.workerIds.length true
    simp only [potential, hlife, hfree, LifecycleHolder.cost, schedulerCost, LoopPhase.cost]
    omega
  | keepScheduler hlife =>
    simp only [potential, hlife, LifecycleHolder.cost]
    omega
  | «open» hlife =>
    simp only [potential, hlife, LifecycleHolder.cost]
    omega
  | drained hcontrol =>
    obtain hc | ⟨hc, -⟩ := hcontrol
    all_goals
      simp only [potential, hc, ControlPhase.cost]
      omega
  | drainSleeps hcontrol =>
    have hawake : .shutdown ∉ s.sleeping := by
      obtain hc | ⟨-, hawake⟩ := hcontrol
      · exact hs.shutdown_awake (by rw [hc]; simp)
      · exact hawake
    have hsleep := sleepCost_cons hawake (.inr rfl)
    obtain hc | ⟨hc, -⟩ := hcontrol
    all_goals
      simp only [potential, hc, ControlPhase.cost]
      omega
  | stop hcontrol =>
    have hwake := wakeCost_le s.pool.workerIds.length true
    simp only [potential, hcontrol, ControlPhase.cost]
    omega
  | notify hcontrol hwoken =>
    have hsleep := sleepCost_notifyOne hwoken
    simp only [potential, hcontrol, ControlPhase.cost]
    omega
  | join hcontrol =>
    have hloop : schedulerCost s.pool.workerIds.length .off s.holder ≤
        schedulerCost s.pool.workerIds.length s.loop s.holder :=
      schedulerCost_le (Nat.zero_le _) s.holder
    simp only [potential, hcontrol, ControlPhase.cost]
    omega
  | closePool hcontrol =>
    have hpool : poolCost s.pool.workerIds.length s.pool.close =
        poolCost s.pool.workerIds.length s.pool := rfl
    have hids : s.pool.close.workerIds = s.pool.workerIds := rfl
    simp only [potential, hids, hpool, hcontrol, ControlPhase.cost]
    omega
  | @stopWorker w rest hcontrol =>
    have hpool : poolCost s.pool.workerIds.length (s.pool.set w (s.worker w).requestStop) ≤
        poolCost s.pool.workerIds.length s.pool := poolCost_set_le _ s.pool (Nat.le_refl _)
    simp only [potential, State.setWorker, WorkerPool.workerIds_set, hcontrol, ControlPhase.cost,
      List.length_cons]
    omega
  | @resetWorker w rest hcontrol =>
    have hpool : poolCost s.pool.workerIds.length (s.pool.set w (s.worker w).reset) ≤
        poolCost s.pool.workerIds.length s.pool := poolCost_set_le _ s.pool (Nat.zero_le _)
    simp only [potential, State.setWorker, WorkerPool.workerIds_set, hcontrol, ControlPhase.cost]
    omega
  | drainRefused hcontrol | notStarted hcontrol | stopped hcontrol | poolDown hcontrol
  | skipWorker hcontrol | allStopped hcontrol | joinWorker hcontrol | publish hcontrol =>
    simp only [potential, hcontrol, ControlPhase.cost, List.length_cons, List.length_nil]
    omega

theorem step_potential {a : Action} (h : step s a = some u) (hown : a.isOwn = true) (hi : Inv s)
    (hs : Asleep s) (hd : Undrained s) : potential u < potential s := by
  cases a with
  | call a => exact callStep_potential h hown hd
  | loop a => exact loopStep_potential h hi
  | thread w a => exact threadStep_potential h hi
  | lifecycle a => exact lifecycleStep_potential h hown hi hs
  | wake => cases hown

/-! ## The result -/

/-- What the potential rests on. -/
structure Settling (s : State) : Prop where
  inv : Inv s
  asleep : Asleep s
  undrained : Undrained s

theorem settling_initial (workerIds : List WorkerID) (capacity : ResourceSet)
    (callback : Bool) : Settling (.initial workerIds capacity callback) where
  inv := inv_initial workerIds capacity callback
  asleep := asleep_initial workerIds capacity callback
  undrained _ := rfl

theorem step_settling {a : Action} (h : step s a = some u) (hpublic : publicApi a = true)
    (hs : Settling s) : Settling u where
  inv := step_inv h hs.inv
  asleep := step_asleep h hs.inv hs.asleep
  undrained := step_undrained h hs.inv hpublic hs.undrained

theorem publicApi_of_isOwn {a : Action} (h : a.isOwn = true) : publicApi a = true := by
  cases a with
  | call a => cases a <;> first | rfl | cases h
  | loop | thread | lifecycle | wake => rfl

theorem spends : Run.Spends step (fun a => a.isOwn = true) Settling potential :=
  fun _ _ _ hs hown hstep => ⟨step_settling hstep (publicApi_of_isOwn hown) hs,
    step_potential hstep hown hs.inv hs.asleep hs.undrained⟩

/-- The threads of the runtime come to rest. Handlers and completion callbacks are steps here, which
return; a spurious wakeup is none of the own steps. -/
theorem own_steps_end {workerIds : List WorkerID} {capacity : ResourceSet} {callback : Bool}
    {as : List Action} (h : Run.run step as (.initial workerIds capacity callback) = some s)
    (hpublic : ∀ a ∈ as, publicApi a = true) :
    (∀ bs u, (∀ a ∈ bs, a.isOwn = true) → Run.run step bs s = some u →
      bs.length + potential u ≤ potential s) ∧
    ∃ bs u, (∀ a ∈ bs, a.isOwn = true) ∧ Run.run step bs s = some u ∧ Stuck u := by
  have hsettling : Settling s := by
    refine Run.invariant (C := fun _ a => publicApi a = true)
      (fun _ _ _ hs hok hstep => step_settling hstep hok hs) ?_ h
      (settling_initial workerIds capacity callback)
    rw [Run.along_iff]
    intro pre a post _ heq _
    exact hpublic a (by simp [heq])
  exact ⟨fun bs u hown hr => spends.length_le hr hsettling hown,
    spends.exists_quiescent hsettling⟩

theorem own_steps_end_one_task :
    ∃ bs u, (∀ a ∈ bs, a.isOwn = true) ∧
      Run.run step bs (Run.stateAfter step Sample.oneTask Sample.runtime) = some u ∧ Stuck u := by
  refine (own_steps_end (Run.run_stateAfter ?_) ?_).2
  · decide
  · decide

end LocalSystem

end AgentRuntime
