import AgentRuntime.Local.Invariant

/-!
# No accepted task is lost or duplicated

The calls of handlers and the accepted completions of a run are counted. A task
that has not got past the scheduled state has neither, one whose handler has
been entered has the call, and one that was completed has one of each.
-/
namespace AgentRuntime

namespace LocalSystem

/-- How often the handler of a task has been called. -/
def calls (seen : List Event) (t : TaskID) : Nat := seen.count (.invoked t)

/-- How often `Complete` has been accepted for a task. -/
def completions (seen : List Event) (t : TaskID) : Nat := seen.count (.completed t)

/-- The task has not been registered or its execution has not begun. -/
def Early (tm : TaskManager) (t : TaskID) : Prop :=
  ∀ record, tm.records.lookup t = some record →
    record.state = .pending ∨ record.state = .queued ∨ record.state = .scheduled

structure Counted (seen : List Event) (tm : TaskManager) (thread : WorkerID → Thread) : Prop where
  early : ∀ t, Early tm t → calls seen t = 0 ∧ completions seen t = 0
  marked : ∀ w work, thread w = .marked work →
    calls seen work.spec.id = 0 ∧ completions seen work.spec.id = 0
  entered : ∀ w work, (thread w = .executing work ∨ ∃ outcome, thread w = .finished work outcome) →
    calls seen work.spec.id = 1 ∧ completions seen work.spec.id = 0
  terminal : ∀ t record, tm.records.lookup t = some record → record.state.isTerminal = true →
    calls seen t = completions seen t ∧ completions seen t ≤ 1

def State.thread (s : State) (w : WorkerID) : Thread := (s.worker w).thread

variable {seen evs : List Event} {tm tm' : TaskManager} {thread thread' : WorkerID → Thread}

theorem calls_append (seen evs : List Event) (t : TaskID) :
    calls (seen ++ evs) t = calls seen t + calls evs t := List.count_append
theorem completions_append (seen evs : List Event) (t : TaskID) :
    completions (seen ++ evs) t = completions seen t + completions evs t := List.count_append

theorem counted_initial (callback : Bool) : Counted [] ⟨∅, callback⟩ (fun _ => .off) where
  early _ _ := ⟨rfl, rfl⟩
  marked _ _ h := by cases h
  entered _ _ h := by simp at h
  terminal t record h := by simp at h

/-- A record changes before its execution has begun, or while it runs. -/
theorem Counted.store (h : Counted seen tm thread) {t : TaskID} {record : TaskRecord}
    (ht : Early tm t ∨ record.state = .running) : Counted seen (tm.store t record) thread where
  early t' he := by
    by_cases heq : t' = t
    · subst heq
      obtain hearly | hrunning := ht
      · exact h.early t' hearly
      · have := he record (by simp)
        simp [hrunning] at this
    · refine h.early t' (fun record' hl => he record' ?_)
      simpa [heq] using hl
  marked := h.marked
  entered := h.entered
  terminal t' record' hl hterm := by
    rw [TaskManager.lookup_store] at hl
    split at hl
    · rename_i heq
      cases hl
      obtain hearly | hrunning := ht
      · obtain ⟨hc, hd⟩ := h.early t hearly
        simp [heq, hc, hd]
      · simp [hrunning, ExecutionState.isTerminal] at hterm
    · exact h.terminal t' record' hl hterm

/-- Steps that are not calls or completions, after which each thread is where it was or at a
place that says nothing about its task. -/
theorem Counted.quiet (h : Counted seen tm thread)
    (hevs : ∀ t, calls evs t = 0 ∧ completions evs t = 0)
    (hmarked : ∀ w work, thread' w = .marked work → thread w = .marked work ∨
      Early tm work.spec.id)
    (hentered : ∀ w work, (thread' w = .executing work ∨
        ∃ outcome, thread' w = .finished work outcome) →
      (thread w = .executing work ∨ ∃ outcome, thread w = .finished work outcome)) :
    Counted (seen ++ evs) tm thread' where
  early t he := by
    rw [calls_append, completions_append, (hevs t).1, (hevs t).2]
    exact h.early t he
  marked w work hm := by
    rw [calls_append, completions_append, (hevs _).1, (hevs _).2]
    obtain hm | he := hmarked w work hm
    · exact h.marked w work hm
    · exact h.early _ he
  entered w work he := by
    rw [calls_append, completions_append, (hevs _).1, (hevs _).2]
    exact h.entered w work (hentered w work he)
  terminal t record hl hterm := by
    rw [calls_append, completions_append, (hevs t).1, (hevs t).2]
    exact h.terminal t record hl hterm

variable {submitting : TaskSpec → TaskHandler → Prop} {queue queue' : TaskQueue}
  {holder holder' : Option Holder} {s u : State}

theorem early_of_lookup {t : TaskID} {record : TaskRecord}
    (hl : tm.records.lookup t = some record)
    (hs : record.state = .pending ∨ record.state = .queued ∨ record.state = .scheduled) :
    Early tm t := by
  intro record' hl'
  rw [hl] at hl'
  cases hl'
  exact hs

theorem callEffect_counted (h : CallEffect submitting tm queue holder tm' queue' holder')
    (hc : Counted seen tm thread) : Counted seen tm' thread := by
  cases h with
  | register _ _ hnew _ => exact hc.store (.inl (fun record hl => by rw [hnew] at hl; cases hl))
  | markQueued hrecord hpending => exact hc.store (.inl (early_of_lookup hrecord (.inl hpending)))
  | cancelQueued hrecord hqueued =>
    exact hc.store (.inl (early_of_lookup hrecord (.inr (.inl hqueued))))
  | cancelRunning hrecord hrunning => exact hc.store (.inr hrunning)
  | same | beginEnqueue | beginRemove | beginCancel | push | remove | refuseEnqueue
  | refuseCancel | «return» => exact hc

theorem loopEffect_counted (h : LoopEffect s evs u) (hc : Counted seen s.taskManager s.thread) :
    Counted (seen ++ evs) u.taskManager u.thread := by
  have same : ∀ {evs : List Event} {tm : TaskManager}, Counted seen tm s.thread →
      (∀ t, calls evs t = 0 ∧ completions evs t = 0) → u.thread = s.thread →
      Counted (seen ++ evs) tm u.thread := by
    intro evs tm hc hevs hthread
    rw [hthread]
    exact hc.quiet hevs (fun w work hm => .inl hm) (fun w work he => he)
  have none : ∀ t, calls [] t = 0 ∧ completions [] t = 0 := fun _ => ⟨rfl, rfl⟩
  cases h with
  | mark executionId hholder hrecord hqueued =>
    exact same (hc.store (.inl (early_of_lookup hrecord (.inr (.inl hqueued))))) none rfl
  | acquire => exact same hc (fun t => by simp [calls, completions]) rfl
  | reserve | dispatch =>
    refine same hc none ?_
    funext w
    simp only [State.setTry, State.tryReturns, State.thread, State.worker, State.setWorker,
      WorkerPool.workers_set]
    split
    · rename_i he
      rw [he]
    · rfl
  | rest | peek | spec | observe | choose | skip | select | giveUp | handler | token | pop =>
    exact same hc none rfl

/-- Two threads do not hold the same task. -/
theorem Inv.thread_unique (h : Inv s) {w w' : WorkerID} {work work' : WorkItem}
    {x x' : ExecutionState} (hw : (s.thread w).item? = some (work, x))
    (hw' : (s.thread w').item? = some (work', x')) (he : work.spec.id = work'.spec.id) :
    w = w' := by
  obtain ⟨record, hl, -, hworker, -⟩ := h.record_of_thread hw
  obtain ⟨record', hl', -, hworker', -⟩ := h.record_of_thread hw'
  rw [he, hl'] at hl
  cases hl
  rw [hworker] at hworker'
  exact Option.some.inj hworker'

theorem thread_setThread (s : State) (w w' : WorkerID) (after : Thread) :
    (s.setThread w after).thread w' = if w' = w then after else s.thread w' := by
  simp only [State.thread, State.worker_setThread]
  split <;> rfl

/-- The thread of a worker calls the handler, or has its completion accepted. -/
theorem Counted.act (hc : Counted seen s.taskManager s.thread) (hi : Inv s) {w : WorkerID}
    {work : WorkItem} {x : ExecutionState} (hw : (s.thread w).item? = some (work, x))
    {ev : Event} (hev : ev = .invoked work.spec.id ∨ ev = .completed work.spec.id)
    (hafter : ∀ w' ≠ w, thread' w' = s.thread w')
    (hmarked : ∀ work', thread' w ≠ .marked work')
    (hentered : ∀ work', (thread' w = .executing work' ∨
      ∃ outcome, thread' w = .finished work' outcome) →
        calls (seen ++ [ev]) work'.spec.id = 1 ∧ completions (seen ++ [ev]) work'.spec.id = 0)
    (hkeep : ∀ t, t ≠ work.spec.id → tm'.records.lookup t = s.taskManager.records.lookup t)
    (hown : ∀ record, tm'.records.lookup work.spec.id = some record →
      record.state = .running ∨ record.state.isTerminal = true ∧
        calls (seen ++ [ev]) work.spec.id = completions (seen ++ [ev]) work.spec.id ∧
        completions (seen ++ [ev]) work.spec.id ≤ 1)
    (hsome : (tm'.records.lookup work.spec.id).isSome = true) :
    Counted (seen ++ [ev]) tm' thread' := by
  have hother : ∀ t, t ≠ work.spec.id → calls (seen ++ [ev]) t = calls seen t ∧
      completions (seen ++ [ev]) t = completions seen t := by
    intro t hne
    obtain rfl | rfl := hev <;> simp [calls, completions, List.count_append, Ne.symm hne]
  have hdistinct : ∀ w' work', w' ≠ w → (s.thread w' = .marked work' ∨
      s.thread w' = .executing work' ∨ ∃ outcome, s.thread w' = .finished work' outcome) →
      work'.spec.id ≠ work.spec.id := by
    intro w' work' hne hw' he
    refine hne (hi.thread_unique (x := .running) ?_ hw he)
    obtain h | h | ⟨outcome, h⟩ := hw' <;> rw [h] <;> rfl
  exact {
    early := by
      intro t he
      by_cases heq : t = work.spec.id
      · subst heq
        obtain ⟨record, hl⟩ := Option.isSome_iff_exists.mp hsome
        have hstate := he record hl
        obtain hrunning | ⟨hterm, -⟩ := hown record hl
        · simp [hrunning] at hstate
        · obtain h | h | h := hstate <;> simp [h, ExecutionState.isTerminal] at hterm
      · rw [(hother t heq).1, (hother t heq).2]
        refine hc.early t (fun record hl => he record ?_)
        rw [hkeep t heq]
        exact hl
    marked := by
      intro w' work' hm
      by_cases heq : w' = w
      · subst heq
        exact absurd hm (hmarked work')
      · rw [hafter w' heq] at hm
        have hne := hdistinct w' work' heq (.inl hm)
        rw [(hother _ hne).1, (hother _ hne).2]
        exact hc.marked w' work' hm
    entered := by
      intro w' work' he
      by_cases heq : w' = w
      · subst heq
        exact hentered work' he
      · rw [hafter w' heq] at he
        have hne := hdistinct w' work' heq (.inr he)
        rw [(hother _ hne).1, (hother _ hne).2]
        exact hc.entered w' work' he
    terminal := by
      intro t record hl hterm
      by_cases heq : t = work.spec.id
      · subst heq
        obtain hrunning | ⟨-, hcount⟩ := hown record hl
        · simp [hrunning, ExecutionState.isTerminal] at hterm
        · exact hcount
      · rw [(hother t heq).1, (hother t heq).2]
        rw [hkeep t heq] at hl
        exact hc.terminal t record hl hterm }

theorem threadEffect_counted {w : WorkerID} (h : ThreadEffect s w evs u) (hi : Inv s)
    (hc : Counted seen s.taskManager s.thread) :
    Counted (seen ++ evs) u.taskManager u.thread := by
  -- the thread goes to a place that says nothing about its task
  have leaves : ∀ {evs : List Event} {tm : TaskManager} {after : Thread},
      Counted seen tm s.thread → (∀ t, calls evs t = 0 ∧ completions evs t = 0) →
      (∀ w', u.thread w' = if w' = w then after else s.thread w') →
      (∀ work, after = .marked work → Early tm work.spec.id) →
      (∀ work, after = .executing work → s.thread w = .executing work) →
      (∀ work outcome, after = .finished work outcome → s.thread w = .executing work) →
      Counted (seen ++ evs) tm u.thread := by
    intro evs tm after hc hevs hthread hmarked hexec hfin
    refine hc.quiet hevs ?_ ?_
    · intro w' work hm
      rw [hthread] at hm
      split at hm
      · exact .inr (hmarked work hm)
      · exact .inl hm
    · intro w' work he
      rw [hthread] at he
      split at he
      · rename_i heq
        subst heq
        obtain he | ⟨outcome, he⟩ := he
        · exact .inl (hexec work he)
        · exact .inl (hfin work outcome he)
      · exact he
  have none : ∀ t, calls [] t = 0 ∧ completions [] t = 0 := fun _ => ⟨rfl, rfl⟩
  have setWorker : ∀ worker w', (s.setWorker w worker).thread w' =
      if w' = w then worker.thread else s.thread w' := by
    intro worker w'
    simp only [State.thread, State.worker_setWorker]
    split <;> rfl
  cases h with
  | take hthread _ =>
    exact leaves hc none (setWorker _) (fun _ h => by cases h) (fun _ h => by cases h)
      (fun _ _ h => by cases h)
  | leave hthread _ _ =>
    exact leaves hc none (setWorker _) (fun _ h => by cases h) (fun _ h => by cases h)
      (fun _ _ h => by cases h)
  | becomeIdle hthread =>
    exact leaves hc none (setWorker _) (fun _ h => by cases h) (fun _ h => by cases h)
      (fun _ _ h => by cases h)
  | reported hthread | erase hthread _ _ | eraseNone hthread _ _ | wake _ hthread
  | announce hthread =>
    exact leaves hc none (thread_setThread _ w · _) (fun _ h => by cases h)
      (fun _ h => by cases h) (fun _ _ h => by cases h)
  | release hthread =>
    refine leaves hc ?_ (thread_setThread _ w · _) (fun _ h => by cases h)
      (fun _ h => by cases h) (fun _ _ h => by cases h)
    intro t
    split <;> simp [calls, completions]
  | @leaveHandler work outcome hthread =>
    refine leaves hc none (thread_setThread _ w · _) (fun _ h => by cases h)
      (fun _ h => by cases h) ?_
    intro work' outcome' h
    cases h
    exact hthread
  | @markRunning work record hthread hrecord hscheduled =>
    have hearly := early_of_lookup hrecord (.inr (.inr hscheduled))
    refine (leaves hc none (thread_setThread _ w · _) ?_ (fun _ h => by cases h)
      (fun _ _ h => by cases h)).store (.inr rfl)
    intro work' h
    cases h
    exact hearly
  | @invoke work hthread =>
    obtain ⟨hcalls, hcompl⟩ := hc.marked w work hthread
    have hitem : (s.thread w).item? = some (work, .running) := by
      rw [State.thread, hthread]
      rfl
    obtain ⟨record, hl, hrunning, -, -⟩ := hi.record_of_thread hitem
    refine hc.act hi hitem (.inl rfl) ?_ ?_ ?_ (fun _ _ => rfl) ?_ ?_
    · intro w' hne
      rw [thread_setThread, if_neg hne]
    · intro work'
      simp [thread_setThread]
    · intro work' he
      simp only [thread_setThread, if_true, Thread.executing.injEq, reduceCtorEq, exists_false,
        or_false] at he
      subst he
      simp [calls_append, completions_append, hcalls, hcompl]
      simp [calls, completions]
    · intro record' hl'
      rw [State.record] at hl
      obtain rfl : record = record' := Option.some.inj (hl.symm.trans hl')
      exact .inl hrunning
    · exact Option.isSome_iff_exists.mpr ⟨record, hl⟩
  | @complete work outcome record after hthread hrecord hrunning hnext =>
    obtain ⟨hcalls, hcompl⟩ := hc.entered w work (.inr ⟨outcome, hthread⟩)
    have hitem : (s.thread w).item? = some (work, .running) := by
      rw [State.thread, hthread]
      rfl
    refine hc.act hi hitem (.inr rfl) ?_ ?_ ?_ ?_ ?_ ?_
    · intro w' hne
      rw [thread_setThread, if_neg hne]
      rfl
    · intro work'
      obtain rfl | ⟨completion, -, rfl⟩ := hnext <;> simp [thread_setThread]
    · intro work' he
      obtain rfl | ⟨completion, -, rfl⟩ := hnext <;> simp [thread_setThread] at he
    · intro t hne
      simp [State.setThread, State.setWorker, hne]
    · intro record' hl
      simp only [State.setThread, State.setWorker, TaskManager.lookup_store, if_true] at hl
      cases hl
      refine .inr ⟨TaskManager.isTerminal_terminalState _, ?_⟩
      simp [calls_append, completions_append, hcalls, hcompl]
      simp [calls, completions]
    · simp [State.setThread, State.setWorker]

/-- Starting and stopping workers puts no thread inside an execution. -/
theorem poolsEffect_thread {rm : ResourceManager} {pool : WorkerPool} (h : PoolsEffect s rm pool)
    (w : WorkerID) : (pool.workers w).thread = s.thread w ∨ (pool.workers w).thread = .waiting ∨
      (pool.workers w).thread = .off := by
  cases h with
  | same | register | closePool => exact .inl rfl
  | startPool =>
    simp only [WorkerPool.start]
    split
    · exact .inl rfl
    · simp only [Worker.start]
      split
      · split
        · exact .inl rfl
        · exact .inr (.inl rfl)
      · exact .inl rfl
  | requestStop w' =>
    left
    rw [WorkerPool.workers_set]
    split
    · rename_i he
      rw [he]
      rfl
    · rfl
  | reset =>
    rw [WorkerPool.workers_set]
    split
    · exact .inr (.inr rfl)
    · exact .inl rfl

theorem step_counted {a : Action} (h : step s a = some u) (hi : Inv s)
    (hc : Counted seen s.taskManager s.thread) :
    Counted (seen ++ events s a) u.taskManager u.thread := by
  cases a with
  | call a =>
    have hthread : u.thread = s.thread := by
      funext w
      rw [State.thread, State.worker, (callFrame h).pool]
      rfl
    rw [hthread, show events s (.call a) = [] from rfl, List.append_nil]
    exact callEffect_counted (callEffect h hi.unfailing) hc
  | loop a => exact loopEffect_counted (loopEffect h hi.unfailing) hc
  | thread w a => exact threadEffect_counted (threadEffect h hi.unfailing) hi hc
  | lifecycle a =>
    have he := lifecycleEffect h hi.stage
    have hthread : ∀ w, u.thread w = s.thread w ∨ u.thread w = .waiting ∨ u.thread w = .off :=
      poolsEffect_thread he.pools
    rw [he.taskManager]
    refine hc.quiet (fun _ => ⟨rfl, rfl⟩) ?_ ?_
    · intro w work hm
      obtain h | h | h := hthread w <;> rw [h] at hm
      · exact .inl hm
      · cases hm
      · cases hm
    · intro w work hw
      obtain h | h | h := hthread w <;> rw [h] at hw
      · exact hw
      · simp at hw
      · simp at hw
  | wake waiter =>
    obtain rfl := step_wake h
    rw [show events s (.wake waiter) = [] from rfl, List.append_nil]
    exact hc

/-- What a run of a new runtime is observed to do. -/
def observedIn (as : List Action) (s : State) : List Event := Run.observed step events as s

theorem counted_run {workerIds : List WorkerID} {capacity : ResourceSet} {callback : Bool}
    {as : List Action} (h : Run.run step as (.initial workerIds capacity callback) = some s) :
    Counted (observedIn as (.initial workerIds capacity callback)) s.taskManager s.thread := by
  have hrun := Run.invariant_observed (I := fun seen s => Inv s ∧
      Counted seen s.taskManager s.thread)
    (fun seen s a u hs _ hstep => ⟨step_inv hstep hs.1, step_counted hstep hs.1 hs.2⟩)
    (Run.along_true as _) h ⟨inv_initial workerIds capacity callback, counted_initial callback⟩
  exact hrun.2

/-- The handler of a running task is about to be called, is being called or has returned. -/
theorem Inv.thread_of_running (h : Inv s) {t : TaskID} {record : TaskRecord}
    (hl : s.record t = some record) (hs : record.state = .running) :
    ∃ w work, work.spec.id = t ∧ (s.thread w = .marked work ∨ s.thread w = .executing work ∨
      ∃ outcome, s.thread w = .finished work outcome) := by
  obtain ⟨w, -, hw⟩ := h.ownership.holding_of_record hl (.inr hs)
  rw [hs] at hw
  simp only [holding] at hw
  split at hw
  · rename_i work x hitem
    cases hw
    refine ⟨w, work, rfl, ?_⟩
    simp only [Worker.item?] at hitem
    split at hitem
    · cases hitem
    · simp only [State.thread, State.worker]
      cases ht : (s.pool.workers w).thread <;> rw [ht] at hitem <;> simp_all [Thread.item?]
  · simp only [Holder.inHand] at hw
    split at hw
    · split at hw
      · cases hw
      · cases hw
    · cases hw

/-- Handlers are called at most once, completions are accepted at most once, and only for
tasks whose handler has been called. -/
theorem Counted.bounds (h : Counted seen s.taskManager s.thread) (hi : Inv s) (t : TaskID) :
    calls seen t ≤ 1 ∧ completions seen t ≤ calls seen t := by
  cases hl : s.record t with
  | none =>
    have := h.early t (fun record hl' => by rw [show s.record t = _ from hl'] at hl; cases hl)
    omega
  | some record =>
    cases hs : record.state with
    | pending =>
      have := h.early t (early_of_lookup hl (.inl hs))
      omega
    | queued =>
      have := h.early t (early_of_lookup hl (.inr (.inl hs)))
      omega
    | scheduled =>
      have := h.early t (early_of_lookup hl (.inr (.inr hs)))
      omega
    | succeeded | failed | cancelled =>
      have := h.terminal t record hl (by rw [hs]; rfl)
      omega
    | running =>
      obtain ⟨w, work, rfl, hm | he | he⟩ := hi.thread_of_running hl hs
      · have := h.marked w work hm
        omega
      · have := h.entered w work (.inl he)
        omega
      · have := h.entered w work (.inr he)
        omega

/-! ## The result -/

/-- The operation that `TryScheduleOne` performs next succeeds, and it is not undoing one. -/
def FailureFree (s : State) : Prop := ∀ phase, s.holder = some (.scheduling phase) →
  match phase with
  | .fetchingSpec t => ∃ spec, s.taskManager.getSpec t = .ok spec
  | .observing _ _ _ _ | .selecting _ _ _ => True
  | .reserving p => (s.pool.tryReserve p.worker).1 = .OK
  | .acquiring p => (s.resourceManager.acquire p.worker p.spec.resources).1 = .OK
  | .fetchingHandler p => ∃ handler, s.taskManager.getHandler p.task = .ok handler
  | .fetchingToken p _ => ∃ token, s.taskManager.getCancellationToken p.task = .ok token
  | .popping p _ _ => s.queue.pop.1 = .ok p.task
  | .marking p _ _ => ∀ executionId,
      (s.taskManager.markScheduled p.task p.worker executionId).1 = .OK
  | .dispatching p work => (s.pool.dispatchReserved p.worker work).1 = .OK
  | .undoRelease _ | .undoReserve _ => False

theorem Inv.failureFree (h : Inv s) : FailureFree s := by
  intro phase hh
  have hun := h.unfailing_holder _ hh
  cases phase with
  | fetchingSpec t =>
    obtain ⟨record, hl⟩ := hun
    exact ⟨_, TaskManager.get_of_some hl⟩
  | reserving p =>
    obtain ⟨-, -, hnot⟩ | ⟨-, -, he⟩ := s.pool.tryReserve_cases p.worker
    · exact absurd hun hnot
    · simp only [he]
  | acquiring p => exact (ResourceManager.acquire_fits hun).1
  | fetchingHandler p =>
    obtain ⟨record, hl⟩ := hun
    exact ⟨_, TaskManager.get_of_some hl⟩
  | fetchingToken p handler =>
    obtain ⟨record, hl⟩ := hun
    exact ⟨_, TaskManager.get_of_some hl⟩
  | popping p handler token =>
    obtain ⟨rest, hqueue⟩ := hun
    simp only [hqueue, TaskQueue.pop]
  | marking p handler token =>
    obtain ⟨record, hl, hqueued⟩ := hun
    intro executionId
    obtain ⟨status, -, -, hnot⟩ | ⟨record', -, -, he⟩ :=
      s.taskManager.mark_cases p.task "Task is not registered" .scheduled
        (fun record => { record with
          attempt := record.attempt + 1, worker := some p.worker, executionId := executionId })
    · have := hnot record hl
      simp [hqueued, TaskManager.legal] at this
    · simp only [TaskManager.markScheduled, he]
  | dispatching p work =>
    obtain ⟨-, -, hnot⟩ | ⟨-, -, -, -, he⟩ := s.pool.dispatchReserved_cases p.worker work
    · exact absurd hun hnot
    · simp only [he]
  | undoRelease p => exact hun
  | undoReserve w => exact hun
  | observing | selecting => trivial

/-- While nobody holds `Scheduler::mu_`, what a worker holds is in its mailbox or with its
thread, and it is one item at most. -/
theorem Inv.held_by_one (h : Inv s) (hfree : s.holder = none) {t : TaskID} {record : TaskRecord}
    (hl : s.record t = some record)
    (hs : record.state = .scheduled ∨ record.state = .running) :
    ∃ w, (∃ work ∈ (s.worker w).items, work.spec.id = t) ∧
      ∀ w', (∃ work ∈ (s.worker w').items, work.spec.id = t) → w' = w := by
  have hitems : ∀ w work, work ∈ (s.worker w).items ↔ ∃ x, (s.worker w).item? = some (work, x) := by
    intro w work
    have hwf : (s.worker w).WellFormed := h.slots.wellFormed w
    rw [hwf.items_eq]
    simp
  have hholding : ∀ w t x, holding s.pool s.holder w = some (t, x) ↔
      ∃ work, (s.worker w).item? = some (work, x) ∧ work.spec.id = t := by
    intro w t x
    simp only [holding, hfree, Holder.inHand]
    rw [show s.pool.workers w = s.worker w from rfl]
    cases hi : (s.worker w).item? with
    | none => simp
    | some item =>
      obtain ⟨work, x'⟩ := item
      simp [and_comm]
  obtain ⟨w, -, hw⟩ := h.ownership.holding_of_record hl hs
  obtain ⟨work, hitem, hid⟩ := (hholding w t _).mp hw
  refine ⟨w, ⟨work, (hitems w work).mpr ⟨_, hitem⟩, hid⟩, ?_⟩
  rintro w' ⟨work', hmem, hid'⟩
  obtain ⟨x', hitem'⟩ := (hitems w' work').mp hmem
  exact (h.ownership.matched.owner_unique ((hholding w' t x').mpr ⟨work', hitem', hid'⟩) hw).1

/-- While `mu_` is free an accepted task is in the queue or with one worker, according to its record;
its handler is called at most once, and exactly once if it completes. The branches in which the
runtime contradicts itself are not reached. -/
theorem accepted_tasks_kept_once {workerIds : List WorkerID} {capacity : ResourceSet}
    {callback : Bool} {as : List Action}
    (h : Run.run step as (.initial workerIds capacity callback) = some s) :
    (s.holder = none →
      s.queue.Nodup ∧
      (∀ t, t ∈ s.queue ↔ ∃ record, s.record t = some record ∧ record.state = .queued) ∧
      (∀ t record, s.record t = some record →
        record.state = .scheduled ∨ record.state = .running →
          ∃! w, ∃ work ∈ (s.worker w).items, work.spec.id = t) ∧
      (∀ w, (s.worker w).items.length ≤ 1)) ∧
    (∀ t, calls (observedIn as (.initial workerIds capacity callback)) t ≤ 1 ∧
      (0 < completions (observedIn as (.initial workerIds capacity callback)) t →
        calls (observedIn as (.initial workerIds capacity callback)) t = 1)) ∧
    FailureFree s := by
  have hi := inv_run h
  refine ⟨fun hfree => ⟨hi.queueing.nodup, ?_, ?_, ?_⟩, ?_, hi.failureFree⟩
  · intro t
    have hqueued := hi.queueing.queued t
    rw [hfree] at hqueued
    exact ⟨fun hm => hqueued.mpr (.inl hm), fun hq => (hqueued.mp hq).elim id (fun hl => by cases hl)⟩
  · intro t record hl hs
    exact hi.held_by_one hfree hl hs
  · intro w
    have hwf : (s.worker w).WellFormed := hi.slots.wellFormed w
    rw [hwf.items_eq]
    cases (s.worker w).item? <;> simp
  · intro t
    obtain ⟨hcalls, hcompl⟩ := (counted_run h).bounds hi t
    exact ⟨hcalls, fun hpos => by omega⟩

namespace Sample

/-- Two tasks, of which the worker has taken the first. -/
def firstTaken : List Action :=
  start ++ submit 1 (spec 1) none ++ submit 2 (spec 2) none ++ [.loop .wait] ++
    schedule (.ofByte 1) ++ [.thread workerId .take]

end Sample

theorem accepted_tasks_kept_once_two :
    (Run.stateAfter step Sample.firstTaken Sample.runtime).queue.Nodup ∧
    ∃! w, ∃ work ∈ ((Run.stateAfter step Sample.firstTaken Sample.runtime).worker w).items,
      work.spec.id = Sample.task 1 := by
  have hfree : (Run.stateAfter step Sample.firstTaken Sample.runtime).holder = none :=
    Option.isNone_iff_eq_none.mp (by decide)
  have hrun : Run.run step Sample.firstTaken Sample.runtime =
      some (Run.stateAfter step Sample.firstTaken Sample.runtime) :=
    Run.run_stateAfter (by decide)
  obtain ⟨hnodup, -, hheld, -⟩ := (accepted_tasks_kept_once hrun).1 hfree
  have hstate : ((Run.stateAfter step Sample.firstTaken Sample.runtime).record
      (Sample.task 1)).map TaskRecord.state = some .scheduled := by decide
  obtain ⟨record, hl, hscheduled⟩ := Option.map_eq_some_iff.mp hstate
  exact ⟨hnodup, hheld _ record hl (.inl hscheduled)⟩

end LocalSystem

end AgentRuntime
