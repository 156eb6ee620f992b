import AgentRuntime.Library.Fifo
import AgentRuntime.Local.Moves
import AgentRuntime.Local.Submission

/-!
# Tasks are dispatched in the order of their Enqueue calls

`TryScheduleOne` takes the front of the queue and nothing else, and between its
`Pop` and the dispatch it holds `Scheduler::mu_`. So what has been enqueued and
not withdrawn has been dispatched, in order, or is in the queue.
-/
namespace AgentRuntime

namespace LocalSystem

/-- What happens to the tasks of the queue. -/
inductive QueueEvent where
  /-- `Enqueue` returns OK. -/
  | enqueued (t : TaskID)
  /-- `Cancel` has cancelled a task that was queued. -/
  | withdrawn (t : TaskID)
  /-- The task is handed to a worker. -/
  | dispatched (t : TaskID)
  deriving DecidableEq

def queueEvents (s : State) : Action → List QueueEvent
  | .call (.enqueuePush _) =>
    match s.holder with
    | some (.enqueuePush _ t) => [.enqueued t]
    | _ => []
  | .call .cancelTask =>
    match s.holder with
    | some (.cancelTask _ t true) =>
      if (s.taskManager.cancel t).1.ok then [.withdrawn t] else []
    | _ => []
  | .loop .tryDispatch =>
    match s.holder with
    | some (.scheduling (.dispatching p work)) =>
      if (s.pool.dispatchReserved p.worker work).1.ok then [.dispatched work.spec.id] else []
    | _ => []
  | _ => []

def enqueued (seen : List QueueEvent) : List TaskID :=
  seen.filterMap fun
    | .enqueued t => some t
    | _ => none

def withdrawn (seen : List QueueEvent) : List TaskID :=
  seen.filterMap fun
    | .withdrawn t => some t
    | _ => none

def dispatched (seen : List QueueEvent) : List TaskID :=
  seen.filterMap fun
    | .dispatched t => some t
    | _ => none

/-- Removed from the queue by `Cancel`, and not cancelled yet. -/
def Holder.withdrawing : Option Holder → List TaskID
  | some (.cancelTask _ t true) => [t]
  | _ => []

/-- Popped by `TryScheduleOne`, and not dispatched yet. -/
def Holder.popped : Option Holder → List TaskID
  | some (.scheduling (.marking p _ _)) | some (.scheduling (.dispatching p _)) => [p.task]
  | _ => []

/-! ## What one step does -/

/-- What a step does to the queue. -/
inductive Passage (s : State) : List QueueEvent → State → Prop where
  | stay {u} (hqueue : u.queue = s.queue)
      (hpopped : Holder.popped u.holder = Holder.popped s.holder)
      (hwithdrawing : Holder.withdrawing u.holder = Holder.withdrawing s.holder) :
      Passage s [] u
  | push {u k t} (hholder : s.holder = some (.enqueuePush k t))
      (hqueue : u.queue = s.queue ++ [t]) (hfree : u.holder = none) :
      Passage s [.enqueued t] u
  | remove {u k t} (hholder : s.holder = some (.cancelRemove k t)) (hmem : t ∈ s.queue)
      (hqueue : u.queue = s.queue.erase t) (hnext : u.holder = some (.cancelTask k t true)) :
      Passage s [] u
  | withdraw {u k t completion} (hholder : s.holder = some (.cancelTask k t true))
      (hqueue : u.queue = s.queue) (hnext : u.holder = some (.cancelReport k true completion)) :
      Passage s [.withdrawn t] u
  | pop {u p handler token} (hholder : s.holder = some (.scheduling (.popping p handler token)))
      (hqueue : s.queue = p.task :: u.queue)
      (hnext : u.holder = some (.scheduling (.marking p handler token))) : Passage s [] u
  | dispatch {u p work} (hholder : s.holder = some (.scheduling (.dispatching p work)))
      (hqueue : u.queue = s.queue) (hfree : u.holder = none) :
      Passage s [.dispatched work.spec.id] u

variable {s u : State} {evs : List Event} {seen : List QueueEvent}

theorem callStep_passage {a : CallAction} (h : callStep s a = some u) (hi : Inv s) :
    Passage s (queueEvents s (.call a)) u := by
  have hmove := callMove h
  cases hmove with
  | push hholder =>
    simp only [queueEvents, hholder]
    exact .push hholder rfl rfl
  | remove hholder hmem => exact .remove hholder hmem rfl rfl
  | @cancel k t queued tm completion hholder hok =>
    simp only [queueEvents, hholder]
    cases queued with
    | true =>
      simp only [hok, if_true]
      exact .withdraw hholder rfl rfl
    | false => exact .stay rfl (by rw [hholder]; rfl) (by rw [hholder]; rfl)
  | @refuseCancel k t queued tm status hholder hno =>
    simp only [queueEvents, hholder]
    cases queued with
    | true =>
      rw [hi.cancel_ok hholder] at hno
      cases hno
    | false => exact .stay rfl (by rw [hholder]; rfl) (by rw [hholder]; rfl)
  | drained ha | drainSleeps ha => obtain rfl | rfl := ha <;> exact .stay rfl rfl rfl
  | refuseChecks | passChecks | refuseRegister | register | refuseEnqueue | notFound
  | drainRefused => exact .stay rfl rfl rfl
  | enterEnqueue _ hholder | refuseMark _ _ hholder | markQueued _ hholder | beginRemove hholder
  | beginCancel hholder | refuseRemove _ hholder | notify hholder | cancelled hholder =>
    exact .stay rfl (by rw [hholder]; rfl) (by rw [hholder]; rfl)

theorem LoopEffect.passage (h : LoopEffect s evs u)
    (hno : ∀ p work, s.holder ≠ some (.scheduling (.dispatching p work))) : Passage s [] u := by
  cases h with
  | rest => exact .stay rfl rfl rfl
  | peek hfree _ _ => exact .stay rfl (by rw [hfree]; rfl) (by rw [hfree]; rfl)
  | spec hholder | observe _ hholder | choose hholder | skip hholder | select hholder
  | reserve hholder | acquire hholder | handler hholder | token hholder | mark _ hholder =>
    exact .stay rfl (by rw [hholder]; rfl) (by rw [hholder]; rfl)
  | giveUp hholder hphase =>
    obtain ⟨_, _, _, rfl⟩ | ⟨_, _, rfl⟩ := hphase <;>
      exact .stay rfl (by rw [hholder]; rfl) (by rw [hholder]; rfl)
  | pop hholder hqueue => exact .pop hholder hqueue rfl
  | dispatch hholder => exact absurd hholder (hno _ _)

theorem ThreadEffect.passage {w : WorkerID} (h : ThreadEffect s w evs u) : Passage s [] u := by
  cases h <;> exact .stay rfl rfl rfl

theorem loopStep_passage {a : LoopAction} (h : loopStep s a = some u) (hi : Inv s) :
    Passage s (queueEvents s (.loop a)) u := by
  have hu := hi.unfailing
  cases a with
  | tryDispatch =>
    simp only [loopStep] at h
    split at h
    · rename_i p work hholder
      have hun := hu.holder _ hholder
      cases h
      obtain ⟨-, -, hnot⟩ | ⟨-, -, -, -, he⟩ := s.pool.dispatchReserved_cases p.worker work
      · exact absurd hun hnot
      · simp only [queueEvents, hholder, tryDispatch, he, Status.ok_OK, if_true]
        exact .dispatch hholder rfl rfl
    · cases h
  | wait | check | tryBegin | trySpec | tryObserve | trySelect | tryReserve | tryAcquire
  | tryHandler | tryToken | tryPop | tryMark | undoRelease | undoReserve =>
    refine (loopEffect h hu).passage (fun p work hholder => ?_)
    simp [loopStep, hholder] at h

theorem step_passage {a : Action} (h : step s a = some u) (hi : Inv s) :
    Passage s (queueEvents s a) u := by
  cases a with
  | call a => exact callStep_passage h hi
  | loop a => exact loopStep_passage h hi
  | thread w a => exact (threadEffect h hi.unfailing).passage
  | lifecycle a =>
    have he := lifecycleEffect h hi.stage
    exact .stay he.queue (by rw [he.holder]) (by rw [he.holder])
  | wake waiter =>
    obtain rfl := step_wake h
    exact .stay rfl rfl rfl

/-! ## The order is kept -/

structure Served (seen : List QueueEvent) (s : State) : Prop where
  inOrder : Fifo.InOrder (enqueued seen) (withdrawn seen ++ Holder.withdrawing s.holder)
    (dispatched seen) (Holder.popped s.holder ++ s.queue)
  begun : ∀ t ∈ enqueued seen, Begun s.taskManager t
  fresh : ∀ k t, s.holder = some (.enqueuePush k t) → t ∉ enqueued seen

theorem served_initial (workerIds : List WorkerID) (capacity : ResourceSet) (callback : Bool) :
    Served [] (.initial workerIds capacity callback) where
  inOrder := .nil
  begun _ h := by cases h
  fresh _ _ h := by cases h

theorem enqueued_append (seen evs : List QueueEvent) :
    enqueued (seen ++ evs) = enqueued seen ++ enqueued evs := List.filterMap_append
theorem withdrawn_append (seen evs : List QueueEvent) :
    withdrawn (seen ++ evs) = withdrawn seen ++ withdrawn evs := List.filterMap_append
theorem dispatched_append (seen evs : List QueueEvent) :
    dispatched (seen ++ evs) = dispatched seen ++ dispatched evs := List.filterMap_append

theorem holder_of_marked {holder : Option Holder} {k : Nat} {t : TaskID}
    (h : Holder.enqueue? holder = some (k, .marked t)) : holder = some (.enqueuePush k t) := by
  simp only [Holder.enqueue?] at h
  split at h
  · cases h
  · cases h
    rfl
  · cases h

/-- A task that is about to be pushed was pending just before. -/
theorem step_enqueuePush {a : Action} (h : step s a = some u) (hi : Inv s) {k : Nat} {t : TaskID}
    (hu : u.holder = some (.enqueuePush k t)) :
    s.holder = some (.enqueuePush k t) ∨ stateOf s.taskManager t = some .pending := by
  cases a with
  | call a =>
    have he := callEffect h hi.unfailing
    rw [hu] at he
    generalize s.holder = holder at he
    generalize u.taskManager = tm' at he
    generalize u.queue = queue' at he
    cases he with
    | same | register => exact .inl rfl
    | markQueued hrecord hpending =>
      exact .inr (by rw [stateOf_of_lookup hrecord, hpending])
  | loop | thread | lifecycle | wake =>
    have hkept := (step_callsKept h (by simp)).enqueue?
    rw [hu] at hkept
    exact .inl (holder_of_marked hkept.symm)

/-- What `TryScheduleOne` dispatches is what it has popped. -/
theorem Inv.dispatched_id (h : Inv s) {p : Placement} {work : WorkItem}
    (hholder : s.holder = some (.scheduling (.dispatching p work))) : work.spec.id = p.task := by
  obtain ⟨record, hl, hspec⟩ := h.agreement.placed p.task work.spec (by rw [hholder]; rfl)
  rw [← hspec]
  exact (h.agreement.records _ _ hl).1

theorem Passage.inOrder {evs : List QueueEvent} (h : Passage s evs u) (hi : Inv s)
    (hs : Served seen s) : Fifo.InOrder (enqueued (seen ++ evs))
      (withdrawn (seen ++ evs) ++ Holder.withdrawing u.holder) (dispatched (seen ++ evs))
      (Holder.popped u.holder ++ u.queue) := by
  have hold := hs.inOrder
  cases h with
  | stay hqueue hpopped hwithdrawing =>
    rw [List.append_nil, hqueue, hpopped, hwithdrawing]
    exact hold
  | @push _ k t hholder hqueue hfree =>
    have hnew := hold.push (hs.fresh k t hholder)
    rw [hholder] at hnew
    rw [enqueued_append, withdrawn_append, dispatched_append, hqueue, hfree]
    simpa [enqueued, withdrawn, dispatched, Holder.popped, Holder.withdrawing] using hnew
  | @remove _ k t hholder hmem hqueue hnext =>
    rw [hholder] at hold
    have hnew := hold.drop (a := t) (by simpa [Holder.popped] using hmem)
    rw [List.append_nil, hqueue, hnext]
    simpa [Holder.popped, Holder.withdrawing] using hnew
  | withdraw hholder hqueue hnext =>
    rw [hholder] at hold
    rw [enqueued_append, withdrawn_append, dispatched_append, hqueue, hnext]
    simpa [enqueued, withdrawn, dispatched, Holder.popped, Holder.withdrawing] using hold
  | pop hholder hqueue hnext =>
    rw [hholder, hqueue] at hold
    rw [List.append_nil, hnext]
    exact hold
  | dispatch hholder hqueue hfree =>
    have hid := hi.dispatched_id hholder
    rw [hholder] at hold
    rw [enqueued_append, withdrawn_append, dispatched_append, hqueue, hfree, hid]
    simpa [enqueued, withdrawn, dispatched, Holder.popped, Holder.withdrawing] using hold.pop

theorem Passage.enqueued {evs : List QueueEvent} (h : Passage s evs u) {t : TaskID}
    (ht : t ∈ enqueued evs) : (∃ k, s.holder = some (.enqueuePush k t)) ∧ u.holder = none := by
  cases h with
  | push hholder hqueue hfree =>
    obtain rfl := List.mem_singleton.mp ht
    exact ⟨⟨_, hholder⟩, hfree⟩
  | stay | remove | withdraw | pop | dispatch => cases ht

theorem step_served {a : Action} (h : step s a = some u) (hi : Inv s) (hs : Served seen s) :
    Served (seen ++ queueEvents s a) u where
  inOrder := (step_passage h hi).inOrder hi hs
  begun t ht := by
    refine step_begun h hi ?_
    rw [enqueued_append] at ht
    obtain ht | ht := List.mem_append.mp ht
    · exact hs.begun t ht
    · obtain ⟨⟨k, hholder⟩, -⟩ := (step_passage h hi).enqueued ht
      obtain ⟨record, hl, hqueued⟩ := (hi.queueing.queued t).mpr (.inr (by rw [hholder]; rfl))
      exact ⟨_, stateOf_of_lookup hl, by simp [hqueued]⟩
  fresh k t hu := by
    have hnot : t ∉ enqueued seen := by
      obtain hpush | hpending := step_enqueuePush h hi hu
      · exact hs.fresh k t hpush
      · intro hmem
        obtain ⟨x, hx, hne⟩ := hs.begun t hmem
        rw [hpending] at hx
        exact hne (Option.some.inj hx).symm
    rw [enqueued_append]
    intro hmem
    obtain ht | ht := List.mem_append.mp hmem
    · exact hnot ht
    · rw [((step_passage h hi).enqueued ht).2] at hu
      cases hu

/-! ## The result -/

/-- What a run of a new runtime does to the queue. -/
def queueObserved (as : List Action) (s : State) : List QueueEvent :=
  Run.observed step queueEvents as s

/-- First in, first out, whatever the tasks request. -/
structure FirstInFirstOut (seen : List QueueEvent) (s : State) : Prop where
  kept : s.holder = none →
    (enqueued seen).filter (fun t => t ∉ withdrawn seen) = dispatched seen ++ s.queue
  next : ∀ a u t t', step s a = some u → .dispatched t ∈ queueEvents s a →
    [t', t].Sublist (enqueued seen) → t' ∈ dispatched seen ∨ t' ∈ withdrawn seen

theorem Served.firstInFirstOut (hs : Served seen s) (hi : Inv s) : FirstInFirstOut seen s where
  kept hfree := by
    have horder := hs.inOrder.order
    rw [hfree] at horder
    simpa [Holder.withdrawing, Holder.popped] using horder
  next a u t t' hstep hdispatched hbefore := by
    have hpassage := step_passage hstep hi
    generalize queueEvents s a = evs at hpassage hdispatched
    cases hpassage with
    | dispatch hholder =>
      have hin := hs.inOrder
      obtain rfl : t = _ := by simpa using hdispatched
      rw [hi.dispatched_id hholder] at hbefore
      rw [hholder] at hin
      obtain hout | hdropped := hin.earlier hbefore
      · exact .inl hout
      · exact .inr (by simpa [Holder.withdrawing] using hdropped)
    | stay | push | remove | withdraw | pop => simp at hdispatched

/-- Tasks leave the queue in the order in which they entered it, those apart that `Cancel` withdrew. -/
theorem strict_fifo {workerIds : List WorkerID} {capacity : ResourceSet} {callback : Bool}
    {as : List Action} (h : Run.run step as (.initial workerIds capacity callback) = some s) :
    FirstInFirstOut (queueObserved as (.initial workerIds capacity callback)) s := by
  have hrun := Run.invariant_observed (I := fun seen s => Inv s ∧ Served seen s)
    (fun seen s a u hs _ hstep => ⟨step_inv hstep hs.1, step_served hstep hs.1 hs.2⟩)
    (Run.along_true as _) h ⟨inv_initial workerIds capacity callback,
      served_initial workerIds capacity callback⟩
  exact hrun.2.firstInFirstOut hrun.1

namespace Sample

/-- Of three tasks the second is cancelled while the first is dispatched. -/
def secondCancelled : List Action :=
  start ++ submit 1 (spec 1) none ++ submit 2 (spec 2) none ++ submit 3 (spec 3) none ++
    [.call (.cancelBegin 4 (task 2)), .call .cancelRemove, .call .cancelTask,
      .call (.cancelReturn none), .loop .wait] ++ schedule (.ofByte 1)

end Sample

theorem strict_fifo_second_cancelled :
    (enqueued (queueObserved Sample.secondCancelled Sample.runtime)).filter
        (fun t => t ∉ withdrawn (queueObserved Sample.secondCancelled Sample.runtime)) =
      [Sample.task 1, Sample.task 3] ∧
    dispatched (queueObserved Sample.secondCancelled Sample.runtime) = [Sample.task 1] ∧
    (Run.stateAfter step Sample.secondCancelled Sample.runtime).queue = [Sample.task 3] := by
  have hrun : Run.run step Sample.secondCancelled Sample.runtime =
      some (Run.stateAfter step Sample.secondCancelled Sample.runtime) :=
    Run.run_stateAfter (by decide)
  have hfree : (Run.stateAfter step Sample.secondCancelled Sample.runtime).holder = none :=
    Option.isNone_iff_eq_none.mp (by decide)
  have hdispatched : dispatched (queueObserved Sample.secondCancelled Sample.runtime) =
      [Sample.task 1] := by decide
  have hqueue : (Run.stateAfter step Sample.secondCancelled Sample.runtime).queue =
      [Sample.task 3] := by decide
  have hfifo : FirstInFirstOut (queueObserved Sample.secondCancelled Sample.runtime)
      (Run.stateAfter step Sample.secondCancelled Sample.runtime) := strict_fifo hrun
  have hkept := hfifo.kept hfree
  rw [hdispatched, hqueue] at hkept
  exact ⟨hkept, hdispatched, hqueue⟩

end LocalSystem

end AgentRuntime
