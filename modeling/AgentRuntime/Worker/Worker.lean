import AgentRuntime.Runtime.TaskManager
import AgentRuntime.Scheduler.Placement

/-!
# Workers and the worker pool

A worker is the state under `Worker::mu_` together with the place its thread
has reached in `Worker::Run` and in the idle callback that `Run` calls.
-/
namespace AgentRuntime

inductive WorkerState where
  | idle | reserved | busy
  deriving DecidableEq

structure WorkItem where
  spec : TaskSpec
  executionId : ExecutionID
  handler : TaskHandler
  /-- The task whose record owns the token. -/
  cancelToken : TaskID
  deriving DecidableEq

/-- Where the thread of a worker is. -/
inductive Thread where
  /-- There is no thread. -/
  | off
  /-- In the wait at the top of the loop. -/
  | waiting
  | taken (work : WorkItem)
  /-- `MarkRunning` was accepted. -/
  | marked (work : WorkItem)
  /-- Inside the handler. -/
  | executing (work : WorkItem)
  | finished (work : WorkItem) (outcome : ExecutionOutcome)
  /-- Inside the completion callback. -/
  | reporting (completion : TaskCompletion)
  /-- About to set the state to idle. -/
  | returning
  /-- About to enter the idle callback, `Scheduler::OnWorkerIdle`. -/
  | notifying
  | releasing (reservation : RunningReservation)
  | waking
  | announcing
  /-- Left the loop. -/
  | exited
  deriving DecidableEq

namespace Thread

/-- The item taken out of the mailbox, until its execution has been completed, with the
state its task is in meanwhile. -/
def item? : Thread → Option (WorkItem × ExecutionState)
  | .taken work => some (work, .scheduled)
  | .marked work | .executing work | .finished work _ => some (work, .running)
  | .off | .waiting | .reporting _ | .returning | .notifying | .releasing _ | .waking
  | .announcing | .exited => none

/-- Between taking an item and setting the state to idle. -/
def engaged : Thread → Bool
  | .taken _ | .marked _ | .executing _ | .finished _ _ | .reporting _ | .returning => true
  | .off | .waiting | .notifying | .releasing _ | .waking | .announcing | .exited => false

/-- The idle callback of a finished item is still to come or under way. -/
def callbackPending : Thread → Bool
  | .reporting _ | .returning | .notifying | .releasing _ => true
  | _ => false

theorem engaged_of_item? {thread : Thread} {item : WorkItem × ExecutionState}
    (h : thread.item? = some item) : thread.engaged = true := by
  cases thread <;> first | rfl | cases h

/-- After the item has been completed its idle callback is still to come. -/
theorem engaged_cases {thread : Thread} (h : thread.engaged = true) :
    thread.item?.isSome = true ∨ thread.callbackPending = true := by
  cases thread with
  | taken | marked | executing | finished => exact .inl rfl
  | reporting | returning => exact .inr rfl
  | off | waiting | notifying | releasing | waking | announcing | exited => cases h

end Thread

structure Worker where
  state : WorkerState
  mailbox : Option WorkItem
  started : Bool
  stopping : Bool
  thread : Thread
  deriving DecidableEq

namespace Worker

def new : Worker := ⟨.idle, none, false, false, .off⟩

def start (wk : Worker) : Worker :=
  if wk.started then wk else { wk with stopping := false, thread := .waiting, started := true }

def isIdle (wk : Worker) : Bool := wk.state = .idle

def reserve (wk : Worker) : Status × Worker :=
  if !wk.started || wk.stopping then (.Unavailable "Worker is not available", wk)
  else if wk.state = .idle then (.OK, { wk with state := .reserved })
  else (.FailedPrecondition "worker is not idle", wk)

def dispatch (wk : Worker) (work : WorkItem) : Status × Worker :=
  if !wk.started || wk.stopping then (.Unavailable "Worker is not accepting work", wk)
  else if wk.state ≠ .reserved then
    (.FailedPrecondition "worker must be reserved before dispatch", wk)
  else if wk.mailbox.isSome then
    (.FailedPrecondition "worker mailbox already contains work", wk)
  else (.OK, { wk with mailbox := some work, state := .busy })

def releaseReservation (wk : Worker) : Status × Worker :=
  if !wk.started || wk.stopping then (.Unavailable "Worker is not available", wk)
  else if wk.state ≠ .reserved then (.FailedPrecondition "worker is not reserved", wk)
  else if wk.mailbox.isSome then
    (.FailedPrecondition "reserved worker unexpectedly contains work", wk)
  else (.OK, { wk with state := .idle })

/-- The wait of `Run` and the section it opens. The thread sleeps while neither the mailbox
is filled nor a shutdown is requested; work in the mailbox goes before a shutdown. -/
def take (wk : Worker) : Option Worker :=
  match wk.thread, wk.mailbox with
  | .waiting, some work => some { wk with thread := .taken work, mailbox := none }
  | .waiting, none => if wk.stopping then some { wk with thread := .exited } else none
  | _, _ => none

/-- The section after the execution. -/
def becomeIdle (wk : Worker) : Worker := { wk with state := .idle, thread := .notifying }

def setThread (wk : Worker) (thread : Thread) : Worker := { wk with thread := thread }

/-- The first section of `Shutdown`. -/
def requestStop (wk : Worker) : Worker := { wk with stopping := true }

/-- The last section of `Shutdown`, after the thread has been joined. -/
def reset (wk : Worker) : Worker :=
  { wk with started := false, stopping := false, mailbox := none, state := .idle, thread := .off }

/-- Idle and reserved workers have nothing to do, a busy one has exactly one item. -/
structure WellFormed (wk : Worker) : Prop where
  free : wk.state ≠ .busy → wk.mailbox = none ∧ wk.thread.engaged = false
  held : wk.state = .busy → wk.mailbox.isSome = !wk.thread.engaged
  down : wk.started = false → wk.state = .idle ∧ wk.thread = .off
  up : wk.started = true → wk.thread ≠ .off
  left : wk.thread = .exited → wk.stopping = true ∧ wk.mailbox = none

/-- The item that the worker holds, in its mailbox or taken out of it by its thread. -/
def item? (wk : Worker) : Option (WorkItem × ExecutionState) :=
  match wk.mailbox with
  | some work => some (work, .scheduled)
  | none => wk.thread.item?

/-- All the items that the worker holds. -/
def items (wk : Worker) : List WorkItem :=
  wk.mailbox.toList ++ (wk.thread.item?.map Prod.fst).toList

theorem wellFormed_new : new.WellFormed where
  free _ := ⟨rfl, rfl⟩
  held h := by cases h
  down _ := ⟨rfl, rfl⟩
  up h := by cases h
  left h := by cases h

theorem WellFormed.start {wk : Worker} (h : wk.WellFormed) : wk.start.WellFormed := by
  cases hs : wk.started with
  | true => simpa [Worker.start, hs] using h
  | false =>
    obtain ⟨hidle, -⟩ := h.down hs
    simp only [Worker.start, hs, Bool.false_eq_true, if_false]
    exact {
      free := fun _ => ⟨(h.free (by simp [hidle])).1, rfl⟩
      held := by simp [hidle]
      down := by simp
      up := by simp
      left := by simp }

theorem reserve_cases (wk : Worker) :
    (∃ status, status.ok = false ∧ wk.reserve = (status, wk) ∧
      ¬ (wk.started = true ∧ wk.stopping = false ∧ wk.state = .idle)) ∨
    wk.started = true ∧ wk.stopping = false ∧ wk.state = .idle ∧
      wk.reserve = (.OK, { wk with state := .reserved }) := by
  simp only [reserve]
  cases hs : wk.started <;> cases hp : wk.stopping <;> by_cases hi : wk.state = .idle <;>
    simp [hi]

theorem dispatch_cases (wk : Worker) (work : WorkItem) :
    (∃ status, status.ok = false ∧ wk.dispatch work = (status, wk) ∧
      ¬ (wk.started = true ∧ wk.stopping = false ∧ wk.state = .reserved ∧ wk.mailbox = none)) ∨
    wk.started = true ∧ wk.stopping = false ∧ wk.state = .reserved ∧ wk.mailbox = none ∧
      wk.dispatch work = (.OK, { wk with mailbox := some work, state := .busy }) := by
  simp only [dispatch]
  cases hs : wk.started <;> cases hp : wk.stopping <;> by_cases hi : wk.state = .reserved <;>
    cases hm : wk.mailbox <;> simp [hi]

theorem releaseReservation_cases (wk : Worker) :
    (∃ status, status.ok = false ∧ wk.releaseReservation = (status, wk)) ∨
    wk.state = .reserved ∧ wk.releaseReservation = (.OK, { wk with state := .idle }) := by
  simp only [releaseReservation]
  cases hs : wk.started <;> cases hp : wk.stopping <;> by_cases hi : wk.state = .reserved <;>
    cases hm : wk.mailbox <;> simp [hi]

theorem WellFormed.reserved {wk : Worker} (h : wk.WellFormed) (hs : wk.started = true)
    (hidle : wk.state = .idle) : WellFormed { wk with state := .reserved } where
  free _ := h.free (by simp [hidle])
  held hb := by cases hb
  down hd := by simp [hs] at hd
  up := h.up
  left := h.left

theorem WellFormed.released {wk : Worker} (h : wk.WellFormed) (hres : wk.state = .reserved) :
    WellFormed { wk with state := .idle } where
  free _ := h.free (by simp [hres])
  held hb := by cases hb
  down hd := by
    have := (h.down hd).1
    simp [hres] at this
  up := h.up
  left := h.left

theorem WellFormed.dispatched {wk : Worker} (h : wk.WellFormed) (hs : wk.started = true)
    (hp : wk.stopping = false) (hres : wk.state = .reserved) (work : WorkItem) :
    WellFormed { wk with mailbox := some work, state := .busy } where
  free hb := by simp at hb
  held _ := by simp [(h.free (by simp [hres])).2]
  down hd := by simp [hs] at hd
  up := h.up
  left he := by simp [(h.left he).1] at hp

/-- The thread takes the item out of the mailbox of a busy worker, or leaves. -/
theorem take_cases {wk wk' : Worker} (h : wk.take = some wk') : wk.thread = .waiting ∧
    ((∃ work, wk.mailbox = some work ∧
        wk' = { wk with thread := .taken work, mailbox := none }) ∨
      wk.mailbox = none ∧ wk.stopping = true ∧ wk' = { wk with thread := .exited }) := by
  simp only [take] at h
  split at h
  · rename_i work ht hm
    cases h
    exact ⟨ht, .inl ⟨work, hm, rfl⟩⟩
  · rename_i ht hm
    split at h
    · rename_i hp
      cases h
      exact ⟨ht, .inr ⟨hm, hp, rfl⟩⟩
    · cases h
  · cases h

theorem WellFormed.take {wk wk' : Worker} (h : wk.WellFormed) (ht : wk.take = some wk') :
    wk'.WellFormed := by
  obtain ⟨hw, ⟨work, hm, rfl⟩ | ⟨hm, hp, rfl⟩⟩ := take_cases ht
  · have hbusy : wk.state = .busy := by
      by_contra hb
      simp [(h.free hb).1] at hm
    exact {
      free := fun hb => absurd hbusy hb
      held := fun _ => rfl
      down := fun hd => by simp [(h.down hd).2] at hw
      up := fun _ => by simp
      left := fun he => by cases he }
  · exact {
      free := fun hb => ⟨hm, rfl⟩
      held := fun hb => by
        have := h.held hb
        simp [hm, hw, Thread.engaged] at this
      down := fun hd => by simp [(h.down hd).2] at hw
      up := fun _ => by simp
      left := fun _ => ⟨hp, hm⟩ }

/-- The thread moves within the part of the loop in which it holds an item, or within the
part in which it does not. -/
theorem WellFormed.setThread {wk : Worker} {thread : Thread} (h : wk.WellFormed)
    (he : thread.engaged = wk.thread.engaged) (hon : wk.thread ≠ .off) (hoff : thread ≠ .off)
    (hexit : thread ≠ .exited) : (wk.setThread thread).WellFormed where
  free hb := ⟨(h.free hb).1, he.trans (h.free hb).2⟩
  held hb := by
    show wk.mailbox.isSome = !thread.engaged
    rw [h.held hb, he]
  down hd := absurd (h.down hd).2 hon
  up _ := hoff
  left hl := absurd hl hexit

/-- A thread at work is the thread of a busy worker with an empty mailbox. -/
theorem WellFormed.at_work {wk : Worker} (h : wk.WellFormed) (ht : wk.thread.engaged = true) :
    wk.state = .busy ∧ wk.mailbox = none := by
  have hbusy : wk.state = .busy := by
    by_contra hb
    simp [(h.free hb).2] at ht
  refine ⟨hbusy, ?_⟩
  have := h.held hbusy
  simpa [ht] using this

/-- Idle and reserved workers hold no item. -/
theorem WellFormed.item?_eq_none {wk : Worker} (h : wk.WellFormed) (hb : wk.state ≠ .busy) :
    wk.item? = none := by
  obtain ⟨hm, he⟩ := h.free hb
  simp only [item?, hm]
  cases hi : wk.thread.item? with
  | none => rfl
  | some item =>
    rw [Thread.engaged_of_item? hi] at he
    cases he

/-- The item of the thread is the item of the worker. -/
theorem WellFormed.item?_of_thread {wk : Worker} (h : wk.WellFormed)
    {item : WorkItem × ExecutionState} (ht : wk.thread.item? = some item) :
    wk.item? = some item := by
  obtain ⟨-, hm⟩ := h.at_work (Thread.engaged_of_item? ht)
  simp only [item?, hm, ht]

/-- A worker holds at most one item. -/
theorem WellFormed.items_eq {wk : Worker} (h : wk.WellFormed) :
    wk.items = (wk.item?.map Prod.fst).toList := by
  cases hm : wk.mailbox with
  | none => simp [items, item?, hm]
  | some work =>
    have hnone : wk.thread.item? = none := by
      cases hi : wk.thread.item? with
      | none => rfl
      | some item =>
        rw [(h.at_work (Thread.engaged_of_item? hi)).2] at hm
        cases hm
    simp [items, item?, hm, hnone]

theorem WellFormed.becomeIdle {wk : Worker} (h : wk.WellFormed)
    (ht : wk.thread.engaged = true) : wk.becomeIdle.WellFormed := by
  obtain ⟨hbusy, hm⟩ := h.at_work ht
  exact {
    free := fun _ => ⟨hm, rfl⟩
    held := fun hb => by cases hb
    down := fun hd => by simp [(h.down hd).1] at hbusy
    up := fun _ => by simp [Worker.becomeIdle]
    left := fun he => by cases he }

theorem WellFormed.requestStop {wk : Worker} (h : wk.WellFormed) :
    wk.requestStop.WellFormed where
  free := h.free
  held := h.held
  down := h.down
  up := h.up
  left he := ⟨rfl, (h.left he).2⟩

theorem WellFormed.reset (wk : Worker) : wk.reset.WellFormed where
  free _ := ⟨rfl, rfl⟩
  held hb := by cases hb
  down _ := ⟨rfl, rfl⟩
  up hu := by cases hu
  left hl := by cases hl

end Worker

/-! ## The pool -/

/-- The constructor makes one worker for each listed identity, so `workers_` is a function
that is consulted at the listed identities only. -/
structure WorkerPool where
  started : Bool
  workerIds : List WorkerID
  workers : WorkerID → Worker

namespace WorkerPool

def new (workerIds : List WorkerID) : WorkerPool := ⟨false, workerIds, fun _ => .new⟩

def findWorkerLocked (pool : WorkerPool) (workerId : WorkerID) : Option Worker :=
  if workerId ∈ pool.workerIds then some (pool.workers workerId) else none

def set (pool : WorkerPool) (workerId : WorkerID) (worker : Worker) : WorkerPool :=
  { pool with workers := fun id => if id = workerId then worker else pool.workers id }

/-- `Worker::Start` cannot fail and every listed worker is found. -/
def start (pool : WorkerPool) : Status × WorkerPool :=
  if pool.started then (.OK, pool)
  else (.OK, { pool with
    started := true
    workers := fun id =>
      if id ∈ pool.workerIds then (pool.workers id).start else pool.workers id })

/-- The shape of the operations that the pool passes on to one of its workers. -/
def onWorker (pool : WorkerPool) (workerId : WorkerID) (notStarted missing : String)
    (operation : Worker → Status × Worker) : Status × WorkerPool :=
  if pool.started then
    match pool.findWorkerLocked workerId with
    | none => (.NotFound missing, pool)
    | some worker => ((operation worker).1, pool.set workerId (operation worker).2)
  else (.Unavailable notStarted, pool)

def tryReserve (pool : WorkerPool) (workerId : WorkerID) : Status × WorkerPool :=
  pool.onWorker workerId "worker pool is not started" "Worker not found" Worker.reserve

def releaseReservation (pool : WorkerPool) (workerId : WorkerID) : Status × WorkerPool :=
  pool.onWorker workerId "worker pool is not started" "worker not found"
    Worker.releaseReservation

def dispatchReserved (pool : WorkerPool) (workerId : WorkerID) (work : WorkItem) :
    Status × WorkerPool :=
  pool.onWorker workerId "Worker pool is not started" "Worker not found"
    (fun worker => worker.dispatch work)

/-- The section of `Shutdown`; the workers are shut down one by one after it. -/
def close (pool : WorkerPool) : WorkerPool := { pool with started := false }

@[simp] theorem workers_set (pool : WorkerPool) (w w' : WorkerID) (wk : Worker) :
    (pool.set w wk).workers w' = if w' = w then wk else pool.workers w' := rfl
@[simp] theorem workerIds_set (pool : WorkerPool) (w : WorkerID) (wk : Worker) :
    (pool.set w wk).workerIds = pool.workerIds := rfl
@[simp] theorem started_set (pool : WorkerPool) (w : WorkerID) (wk : Worker) :
    (pool.set w wk).started = pool.started := rfl

theorem set_self (pool : WorkerPool) (w : WorkerID) : pool.set w (pool.workers w) = pool := by
  have : (fun id => if id = w then pool.workers w else pool.workers id) = pool.workers := by
    funext id
    split
    · rename_i h
      rw [h]
    · rfl
  simp [set, this]

/-- An operation that the worker refuses without a change, or the worker's own effect. -/
theorem onWorker_eq {pool : WorkerPool} {w : WorkerID} (notStarted missing : String)
    (operation : Worker → Status × Worker) (hstarted : pool.started = true)
    (hw : w ∈ pool.workerIds) : pool.onWorker w notStarted missing operation =
      ((operation (pool.workers w)).1, pool.set w (operation (pool.workers w)).2) := by
  simp [onWorker, findWorkerLocked, hstarted, hw]

/-- Whatever the pool answers, at most the named worker is touched, by the operation. -/
theorem onWorker_pool (pool : WorkerPool) (w : WorkerID) (notStarted missing : String)
    (operation : Worker → Status × Worker) :
    ((pool.onWorker w notStarted missing operation).1.ok = false ∧
      (pool.onWorker w notStarted missing operation).2 = pool) ∨
    pool.started = true ∧ w ∈ pool.workerIds ∧
      pool.onWorker w notStarted missing operation =
        ((operation (pool.workers w)).1, pool.set w (operation (pool.workers w)).2) := by
  cases hs : pool.started with
  | false => exact .inl (by simp [onWorker, hs])
  | true =>
    by_cases hw : w ∈ pool.workerIds
    · exact .inr ⟨rfl, hw, onWorker_eq notStarted missing operation hs hw⟩
    · exact .inl (by simp [onWorker, findWorkerLocked, hs, hw])

theorem tryReserve_cases (pool : WorkerPool) (w : WorkerID) :
    ((pool.tryReserve w).1.ok = false ∧ (pool.tryReserve w).2 = pool ∧
      ¬ (pool.started = true ∧ w ∈ pool.workerIds ∧ (pool.workers w).started = true ∧
        (pool.workers w).stopping = false ∧ (pool.workers w).state = .idle)) ∨
    (pool.workers w).started = true ∧ (pool.workers w).state = .idle ∧
      pool.tryReserve w = (.OK, pool.set w { pool.workers w with state := .reserved }) := by
  obtain ⟨hno, he⟩ | ⟨hs, hw, he⟩ := pool.onWorker_pool w "worker pool is not started"
    "Worker not found" Worker.reserve
  · refine .inl ⟨hno, he, ?_⟩
    rintro ⟨hs, hw, hws, hwp, hidle⟩
    rw [onWorker_eq _ _ _ hs hw] at hno
    obtain ⟨status, -, -, hnot⟩ | ⟨-, -, -, hr⟩ := (pool.workers w).reserve_cases
    · exact hnot ⟨hws, hwp, hidle⟩
    · simp [hr] at hno
  · obtain ⟨status, hno, hr, hnot⟩ | ⟨hws, -, hidle, hr⟩ := (pool.workers w).reserve_cases
    · left
      simp only [tryReserve, he, hr, set_self, hno]
      exact ⟨trivial, trivial, fun h => hnot h.2.2⟩
    · right
      simp only [tryReserve, he, hr]
      exact ⟨hws, hidle, trivial⟩

theorem dispatchReserved_cases (pool : WorkerPool) (w : WorkerID) (work : WorkItem) :
    ((pool.dispatchReserved w work).1.ok = false ∧ (pool.dispatchReserved w work).2 = pool ∧
      ¬ (pool.started = true ∧ w ∈ pool.workerIds ∧ (pool.workers w).started = true ∧
        (pool.workers w).stopping = false ∧ (pool.workers w).state = .reserved ∧
        (pool.workers w).mailbox = none)) ∨
    (pool.workers w).started = true ∧ (pool.workers w).stopping = false ∧
      (pool.workers w).state = .reserved ∧ (pool.workers w).mailbox = none ∧
      pool.dispatchReserved w work =
        (.OK, pool.set w { pool.workers w with mailbox := some work, state := .busy }) := by
  obtain ⟨hno, he⟩ | ⟨hs, hw, he⟩ := pool.onWorker_pool w "Worker pool is not started"
    "Worker not found" (fun worker => worker.dispatch work)
  · refine .inl ⟨hno, he, ?_⟩
    rintro ⟨hs, hw, hws, hwp, hres, hm⟩
    rw [onWorker_eq _ _ _ hs hw] at hno
    obtain ⟨status, -, -, hnot⟩ | ⟨-, -, -, -, hr⟩ := (pool.workers w).dispatch_cases work
    · exact hnot ⟨hws, hwp, hres, hm⟩
    · simp [hr] at hno
  · obtain ⟨status, hno, hr, hnot⟩ | ⟨hws, hwp, hres, hm, hr⟩ :=
      (pool.workers w).dispatch_cases work
    · left
      simp only [dispatchReserved, he, hr, set_self, hno]
      exact ⟨trivial, trivial, fun h => hnot h.2.2⟩
    · right
      simp only [dispatchReserved, he, hr]
      exact ⟨hws, hwp, hres, hm, trivial⟩

end WorkerPool

end AgentRuntime
