import AgentRuntime.Local.LockDiscipline

/-!
# The completion callback and the mutexes

Two functions call the completion callback: `TaskManager::Complete`, on the
thread of a worker, and `TaskManager::Cancel`, for a task that is still queued.
Both let go of their own mutex before. A worker thread then holds none at all,
but `Cancel` is called by `Scheduler::Cancel`, which holds `mu_` until it
returns.
-/
namespace AgentRuntime

namespace LocalSystem

/-- The completion that a thread calls the callback with. -/
def callback? (s : State) : Agent → Option TaskCompletion
  | .worker w => completion? s (.worker w)
  | .cancel k => if Holder.cancel? s.holder = some k then completion? s .cancel else none
  | .submit _ | .getStatus _ | .drain _ | .control | .shutdown _ | .loop => none

/-- The thread has left the section that made the completion, and is inside the callback. -/
def InCallback (σ : Locks.State Threads Move Agent Mutex) (x : Agent) : Prop :=
  σ.phase x = .leaving [] ∧ (callback? σ.inner.runtime x).isSome = true

/-- `TaskManager::Cancel` is going to find the task queued, with a callback installed. -/
def cancelsQueued (s : State) : Move → Bool
  | .step (.call .cancelTask) =>
    match s.holder with
    | some (.cancelTask _ t _) =>
      s.taskManager.completionCallback && decide (stateOf s.taskManager t = some .queued)
    | _ => false
  | _ => false

variable {s u : State} {σ : Locks.State Threads Move Agent Mutex}

/-! ## Who calls back while it cancels -/

/-- The callback is called for a task that was queued. -/
theorem cancelTask_completion {k : Nat} {t : TaskID} {queued : Bool}
    (hholder : s.holder = some (.cancelTask k t queued))
    (hno : cancelsQueued s (.step (.call .cancelTask)) = false) :
    (s.taskManager.cancel t).2.1 = none := by
  simp only [cancelsQueued, hholder] at hno
  obtain ⟨status, -, he, -⟩ | ⟨record, hl, hqueued, he⟩ | ⟨record, -, -, he⟩ :=
    s.taskManager.cancel_cases t
  · rw [he]
  · simp only [stateOf_of_lookup hl, hqueued, decide_true, Bool.and_true] at hno
    simp only [he, TaskManager.notification, hno, Bool.false_eq_true, if_false]
  · rw [he]

theorem callStep_cancel_completion {a : CallAction} (h : callStep s a = some u)
    (hnone : completion? s .cancel = none)
    (hno : cancelsQueued s (.step (.call a)) = false) : completion? u .cancel = none := by
  cases a with
  | cancelTask =>
    simp only [callStep] at h
    split at h
    · rename_i k t queued hholder
      cases h
      have hcompletion := cancelTask_completion hholder hno
      simp only [cancelTask]
      split
      · exact hcompletion
      · rfl
    · cases h
  | submitBegin | submitRegister | enqueueBegin | enqueueMark | enqueuePush | cancelBegin
  | cancelRemove | cancelReturn | drainBegin | drainWait =>
    cases callMove h <;> first | exact hnone | rfl

theorem step_cancel_completion {a : Action} (h : step s a = some u)
    (hnone : completion? s .cancel = none) (hno : cancelsQueued s (.step a) = false) :
    completion? u .cancel = none := by
  cases a with
  | call a => exact callStep_cancel_completion h hnone hno
  | loop a =>
    cases loopMove h with
    | rest => exact hnone
    | goesOn | returns => rfl
  | thread w a =>
    cases threadMove h
    exact hnone
  | lifecycle a => cases lifecycleMove h <;> exact hnone
  | wake waiter =>
    obtain rfl := step_wake h
    exact hnone

theorem moveStep_cancel_completion {s u : Threads} {a : Move} (h : moveStep s a = some u)
    (hnone : completion? s.runtime .cancel = none) (hno : cancelsQueued s.runtime a = false) :
    completion? u.runtime .cancel = none := by
  cases a with
  | step a =>
    obtain ⟨v, hv, rfl⟩ := Option.map_eq_some_iff.mp h
    exact step_cancel_completion hv hnone hno
  | shutdown k a =>
    simp only [moveStep] at h
    split at h
    · rename_i ha
      obtain ⟨v, hv, rfl⟩ := Option.map_eq_some_iff.mp h
      simp only [completion?, (shutdown_kept hv ha).1]
      exact hnone
    · cases h
  | getStatus =>
    cases h
    exact hnone

/-! ## What a thread holds inside the callback -/

/-- What holds of every state of a run, with the lock operations spelled out. -/
def LocksKept (σ : Locks.State Threads Move Agent Mutex) : Prop :=
  Locks.Inv locking (fun s => Disciplined s.runtime) (fun s => retained s.runtime) σ

theorem locksKept_run {workerIds : List WorkerID} {capacity : ResourceSet} {callback : Bool}
    {as : List (Locks.Action Move Agent)}
    (h : Run.run (Locks.step locking) as (.initial (.initial workerIds capacity callback)) =
      some σ) : LocksKept σ :=
  Locks.inv_run discipline (disciplined_initial workerIds capacity callback)
    (retained_initial workerIds capacity callback) h

/-- A worker thread calls back without any mutex. -/
theorem worker_callback_unlocked (hi : LocksKept σ) {w : WorkerID}
    (hx : InCallback σ (.worker w)) (m : Mutex) : σ.owner m ≠ some (.worker w) := by
  rw [ne_eq, hi.owner_iff hx.1]
  exact List.not_mem_nil

/-- A thread that cancels calls back with `Scheduler::mu_`, and with no other mutex. -/
theorem cancel_callback_locked (hi : LocksKept σ) {k : Nat}
    (hx : InCallback σ (.cancel k)) (m : Mutex) :
    σ.owner m = some (.cancel k) ↔ m = .scheduler := by
  have hk : Holder.cancel? σ.inner.runtime.holder = some k := by
    by_contra hother
    have hin := hx.2
    rw [callback?, if_neg hother] at hin
    cases hin
  rw [hi.owner_iff hx.1, retained_cancel hk, List.mem_singleton]

/-! ## The result -/

/-- As long as no queued task is cancelled, completion callbacks run without a mutex. -/
theorem callbacks_hold_nothing {workerIds : List WorkerID} {capacity : ResourceSet}
    {callback : Bool} {as : List (Locks.Action Move Agent)}
    (h : Run.run (Locks.step locking) as (.initial (.initial workerIds capacity callback)) =
      some σ)
    (hno : Run.Along (Locks.step locking)
      (fun σ l => ∀ a ∈ Locks.effect? σ l, cancelsQueued σ.inner.runtime a = false) as
      (.initial (.initial workerIds capacity callback))) :
    ∀ x, InCallback σ x → ∀ m, σ.owner m ≠ some x := by
  have hkept := locksKept_run h
  have hnone : completion? σ.inner.runtime .cancel = none :=
    Locks.inner_invariant (J := fun s => completion? s.runtime .cancel = none)
      (fun _ _ _ hv hq hu => moveStep_cancel_completion hu hv hq) hno h rfl
  intro x hx m
  cases x with
  | worker w => exact worker_callback_unlocked hkept hx m
  | cancel k =>
    have hin := hx.2
    rw [callback?, hnone, ite_self] at hin
    cases hin
  | submit | getStatus | drain | control | shutdown | loop => cases hx.2

namespace Sample

def reporting : Locks.State Threads Move Agent Mutex :=
  .initial (.initial [workerId] capacity true)

/-- Each section takes so many steps of its thread while nobody is in its way. -/
def perform (x : Agent) (sections : List (Action × Nat)) : List (Locks.Action Move Agent) :=
  sections.flatMap fun taken => .enter x (.step taken.1) :: List.replicate taken.2 (.advance x)

def oneSubmitted : List (Locks.Action Move Agent) :=
  perform .control (start.zip [6, 5, 3, 2]) ++
    perform (.submit 1) ((submit 1 (spec 1) none).zip [6, 3, 2, 3, 5])

/-- The task is queued when it is cancelled. -/
def queuedCancelled : List (Locks.Action Move Agent) :=
  oneSubmitted ++ perform (.cancel 2)
    [(.call (.cancelBegin 2 (task 1)), 4), (.call .cancelRemove, 3), (.call .cancelTask, 3)]

/-- The task is executed, and its worker calls back. -/
def oneExecuted : List (Locks.Action Move Agent) :=
  oneSubmitted ++
    perform .loop ((.loop .wait :: schedule (.ofByte 9)).zip
      [3, 3, 4, 4, 3, 2, 3, 5, 3, 3, 3, 3, 3, 6]) ++
    perform (.worker workerId) (execute.zip [3, 3, 1, 1, 3])

end Sample

set_option maxRecDepth 4000 in
theorem callbacks_hold_nothing_executed :
    let σ := Run.stateAfter (Locks.step locking) Sample.oneExecuted Sample.reporting
    InCallback σ (.worker Sample.workerId) ∧ ∀ m, σ.owner m ≠ some (.worker Sample.workerId) := by
  have hrun : Run.run (Locks.step locking) Sample.oneExecuted Sample.reporting =
      some (Run.stateAfter (Locks.step locking) Sample.oneExecuted Sample.reporting) :=
    Run.run_stateAfter (by decide)
  have hin : InCallback (Run.stateAfter (Locks.step locking) Sample.oneExecuted Sample.reporting)
      (.worker Sample.workerId) := ⟨rfl, by decide⟩
  exact ⟨hin, callbacks_hold_nothing hrun (by decide) _ hin⟩

/-- The thread that cancels a queued task calls back with `Scheduler::mu_` taken. -/
theorem callback_under_scheduler_mutex :
    let σ := Run.stateAfter (Locks.step locking) Sample.queuedCancelled Sample.reporting
    Run.run (Locks.step locking) Sample.queuedCancelled Sample.reporting = some σ ∧
      InCallback σ (.cancel 2) ∧ σ.owner .scheduler = some (.cancel 2) := by
  have hrun : Run.run (Locks.step locking) Sample.queuedCancelled Sample.reporting =
      some (Run.stateAfter (Locks.step locking) Sample.queuedCancelled Sample.reporting) :=
    Run.run_stateAfter (by decide)
  have hin : InCallback
      (Run.stateAfter (Locks.step locking) Sample.queuedCancelled Sample.reporting)
      (.cancel 2) := ⟨rfl, by decide⟩
  exact ⟨hrun, hin, (cancel_callback_locked (locksKept_run hrun) hin .scheduler).mpr rfl⟩

end LocalSystem

end AgentRuntime
