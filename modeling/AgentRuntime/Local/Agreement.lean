import AgentRuntime.Local.Slots

/-!
# What is executed is what was submitted

A record keeps the spec and the handler it was registered with. What the
scheduler has read from it, and the items that the workers hold, agree with it.
-/
namespace AgentRuntime

namespace LocalSystem

namespace Holder

/-- The spec that the scheduler has read for a task. -/
def spec? : Option Holder → Option (TaskID × TaskSpec)
  | some (.scheduling phase) =>
    match phase with
    | .observing t spec _ _ | .selecting t spec _ => some (t, spec)
    | .reserving p | .acquiring p | .fetchingHandler p | .fetchingToken p _ | .popping p _ _
    | .marking p _ _ => some (p.task, p.spec)
    | .dispatching p work => some (p.task, work.spec)
    | .fetchingSpec _ | .undoRelease _ | .undoReserve _ => none
  | _ => none

/-- The handler that the scheduler has read for a task. -/
def handler? : Option Holder → Option (TaskID × TaskHandler)
  | some (.scheduling phase) =>
    match phase with
    | .fetchingToken p handler | .popping p handler _ | .marking p handler _ =>
      some (p.task, handler)
    | .dispatching p work => some (p.task, work.handler)
    | _ => none
  | _ => none

end Holder

/-- Records keep their spec and handler, and new ones are filed under their own id. -/
structure Evolves (tm tm' : TaskManager) : Prop where
  kept : ∀ t record, tm.records.lookup t = some record →
    ∃ record', tm'.records.lookup t = some record' ∧ record'.spec = record.spec ∧
      record'.handler = record.handler
  added : ∀ t record', tm'.records.lookup t = some record' →
    (∃ record, tm.records.lookup t = some record ∧ record'.spec = record.spec ∧
      record'.handler = record.handler) ∨
    tm.records.lookup t = none ∧ record'.spec.id = t ∧ record'.handler.isSome = true

structure Agreement (tm : TaskManager) (pool : WorkerPool) (holder : Option Holder) : Prop where
  records : ∀ t record, tm.records.lookup t = some record →
    record.spec.id = t ∧ record.handler.isSome = true
  items : ∀ w work x, (pool.workers w).item? = some (work, x) →
    ∃ record, tm.records.lookup work.spec.id = some record ∧ record.spec = work.spec ∧
      record.handler = work.handler
  placed : ∀ t spec, Holder.spec? holder = some (t, spec) →
    ∃ record, tm.records.lookup t = some record ∧ record.spec = spec
  bound : ∀ t handler, Holder.handler? holder = some (t, handler) →
    ∃ record, tm.records.lookup t = some record ∧ record.handler = handler

variable {submitting : TaskSpec → TaskHandler → Prop}
  {tm tm' : TaskManager} {queue queue' : TaskQueue} {holder holder' : Option Holder}
  {pool : WorkerPool}

theorem Evolves.refl (tm : TaskManager) : Evolves tm tm where
  kept _ record h := ⟨record, h, rfl, rfl⟩
  added _ record h := .inl ⟨record, h, rfl, rfl⟩

theorem evolves_store {t : TaskID} {record record' : TaskRecord}
    (hrecord : tm.records.lookup t = some record) (hspec : record'.spec = record.spec)
    (hhandler : record'.handler = record.handler) : Evolves tm (tm.store t record') where
  kept t' r hr := by
    rw [TaskManager.lookup_store]
    split
    · rename_i he
      rw [he, hrecord] at hr
      cases hr
      exact ⟨record', rfl, hspec, hhandler⟩
    · exact ⟨r, hr, rfl, rfl⟩
  added t' r hr := by
    rw [TaskManager.lookup_store] at hr
    split at hr
    · rename_i he
      cases hr
      exact .inl ⟨record, he ▸ hrecord, hspec, hhandler⟩
    · exact .inl ⟨r, hr, rfl, rfl⟩

theorem evolves_register {spec : TaskSpec} {handler : TaskHandler}
    (hnew : tm.records.lookup spec.id = none) (hhandler : handler.isSome = true) :
    Evolves tm (tm.store spec.id (TaskManager.newRecord spec handler)) where
  kept t r hr := by
    rw [TaskManager.lookup_store, if_neg]
    · exact ⟨r, hr, rfl, rfl⟩
    · rintro rfl
      rw [hnew] at hr
      cases hr
  added t r hr := by
    rw [TaskManager.lookup_store] at hr
    split at hr
    · rename_i he
      cases hr
      exact .inr ⟨he ▸ hnew, he.symm, hhandler⟩
    · exact .inl ⟨r, hr, rfl, rfl⟩

theorem callEffect_evolves (h : CallEffect submitting tm queue holder tm' queue' holder') :
    Evolves tm tm' := by
  cases h with
  | register _ _ hnew hhandler => exact evolves_register hnew hhandler
  | markQueued hrecord _ | cancelQueued hrecord _ | cancelRunning hrecord _ =>
    exact evolves_store hrecord rfl rfl
  | same | beginEnqueue | beginRemove | beginCancel | push | remove | refuseEnqueue
  | refuseCancel | «return» => exact .refl _

variable {s u : State} {evs : List Event}

theorem loopEffect_evolves (h : LoopEffect s evs u) : Evolves s.taskManager u.taskManager := by
  cases h with
  | mark _ _ hrecord _ => exact evolves_store hrecord rfl rfl
  | rest | peek | spec | observe | choose | skip | select | giveUp | reserve | acquire | handler
  | token | pop | dispatch => exact .refl _

theorem threadEffect_evolves {w : WorkerID} (h : ThreadEffect s w evs u) :
    Evolves s.taskManager u.taskManager := by
  cases h with
  | markRunning _ hrecord _ => exact evolves_store hrecord rfl rfl
  | complete _ _ hrecord _ _ => exact evolves_store hrecord rfl rfl
  | take | leave | invoke | leaveHandler | reported | becomeIdle | erase | eraseNone | release
  | wake | announce => exact .refl _

theorem agreement_initial (workerIds : List WorkerID) (callback : Bool) :
    Agreement ⟨∅, callback⟩ (.new workerIds) none where
  records t record h := by simp at h
  items w work x h := by simp [WorkerPool.new, Worker.new, Worker.item?, Thread.item?] at h
  placed _ _ h := by cases h
  bound _ _ h := by cases h

theorem Agreement.evolve (h : Agreement tm pool holder) (he : Evolves tm tm') :
    Agreement tm' pool holder where
  records t record' hl := by
    obtain ⟨record, hl', hspec, hhandler⟩ | ⟨-, hid, hhandler⟩ := he.added t record' hl
    · rw [hspec, hhandler]
      exact h.records t record hl'
    · exact ⟨hid, hhandler⟩
  items w work x hi := by
    obtain ⟨record, hl, hspec, hhandler⟩ := h.items w work x hi
    obtain ⟨record', hl', hs, hh⟩ := he.kept _ record hl
    exact ⟨record', hl', hs.trans hspec, hh.trans hhandler⟩
  placed t spec hp := by
    obtain ⟨record, hl, hspec⟩ := h.placed t spec hp
    obtain ⟨record', hl', hs, -⟩ := he.kept _ record hl
    exact ⟨record', hl', hs.trans hspec⟩
  bound t handler hb := by
    obtain ⟨record, hl, hhandler⟩ := h.bound t handler hb
    obtain ⟨record', hl', -, hh⟩ := he.kept _ record hl
    exact ⟨record', hl', hh.trans hhandler⟩

/-- A worker changes without taking an item. -/
theorem Agreement.setWorker (h : Agreement tm pool holder) {w : WorkerID} {worker : Worker}
    (hi : ∀ work x, worker.item? = some (work, x) →
      ∃ x', (pool.workers w).item? = some (work, x')) :
    Agreement tm (pool.set w worker) holder :=
  { h with
    items := by
      intro w' work x hw
      rw [WorkerPool.workers_set] at hw
      split at hw
      · obtain ⟨x', hx⟩ := hi work x hw
        exact h.items w work x' hx
      · exact h.items w' work x hw }

theorem Agreement.rehold (h : Agreement tm pool holder)
    (hs : ∀ t spec, Holder.spec? holder' = some (t, spec) → Holder.spec? holder = some (t, spec))
    (hh : ∀ t handler, Holder.handler? holder' = some (t, handler) →
      Holder.handler? holder = some (t, handler)) : Agreement tm pool holder' where
  records := h.records
  items := h.items
  placed t spec he := h.placed t spec (hs t spec he)
  bound t handler he := h.bound t handler (hh t handler he)

theorem callEffect_agreement (h : CallEffect submitting tm queue holder tm' queue' holder')
    (ha : Agreement tm pool holder) : Agreement tm' pool holder' := by
  refine (ha.evolve (callEffect_evolves h)).rehold ?_ ?_
  · intro t spec hs
    cases h <;> exact hs
  · intro t handler hh
    cases h <;> exact hh

theorem loopEffect_agreement (h : LoopEffect s evs u)
    (ha : Agreement s.taskManager s.pool s.holder) :
    Agreement u.taskManager u.pool u.holder := by
  have hev := ha.evolve (loopEffect_evolves h)
  cases h with
  | rest => exact ha
  | peek | giveUp => exact ha.rehold (fun _ _ h => by cases h) (fun _ _ h => by cases h)
  | spec hholder hrecord =>
    refine ⟨ha.records, ha.items, ?_, (fun _ _ h => by cases h)⟩
    intro t spec he
    cases he
    exact ⟨_, hrecord, rfl⟩
  | observe _ hholder _ | choose hholder | skip hholder | select hholder _ | acquire hholder _
  | token hholder | pop hholder _ =>
    exact ha.rehold (by rw [hholder]; exact fun _ _ h => h) (by rw [hholder]; exact fun _ _ h => h)
  | reserve hholder _ _ =>
    refine (ha.setWorker ?_).rehold ?_ ?_
    · exact fun work x hi => ⟨x, hi⟩
    · rw [hholder]
      exact fun _ _ h => h
    · rw [hholder]
      exact fun _ _ h => h
  | handler hholder hrecord =>
    refine ⟨ha.records, ha.items, ?_, ?_⟩
    · intro t spec he
      refine ha.placed t spec ?_
      rw [hholder]
      exact he
    · intro t handler he
      cases he
      exact ⟨_, hrecord, rfl⟩
  | mark executionId hholder hrecord hqueued =>
    exact hev.rehold (by rw [hholder]; exact fun _ _ h => h) (by rw [hholder]; exact fun _ _ h => h)
  | @dispatch p work hholder _ _ _ _ =>
    refine ⟨ha.records, ?_, (fun _ _ h => by cases h), (fun _ _ h => by cases h)⟩
    intro w work' x hi
    simp only [State.tryReturns, State.setWorker, WorkerPool.workers_set] at hi
    split at hi
    · cases hi
      obtain ⟨record, hl, hspec⟩ := ha.placed p.task work.spec (by rw [hholder]; rfl)
      obtain ⟨record', hl', hhandler⟩ := ha.bound p.task work.handler (by rw [hholder]; rfl)
      rw [hl] at hl'
      cases hl'
      have hid := (ha.records _ _ hl).1
      rw [hspec] at hid
      exact ⟨record, by rw [hid]; exact hl, hspec, hhandler⟩
    · exact ha.items w work' x hi

theorem threadEffect_agreement {w : WorkerID} (h : ThreadEffect s w evs u)
    (hs : Slots s.pool s.holder) (ha : Agreement s.taskManager s.pool s.holder) :
    Agreement u.taskManager u.pool u.holder := by
  have hev := ha.evolve (threadEffect_evolves h)
  have hwf : (s.worker w).WellFormed := hs.wellFormed w
  -- the item of a thread stays the item of its worker
  have move : ∀ {before after : Thread}, (s.worker w).thread = before →
      (∀ work x, after.item? = some (work, x) → ∃ x', before.item? = some (work, x')) →
      ∀ work x, ((s.worker w).setThread after).item? = some (work, x) →
        ∃ x', (s.worker w).item? = some (work, x') := by
    intro before after hbefore hkeep work x hi
    simp only [Worker.item?, Worker.setThread] at hi
    cases hm : (s.worker w).mailbox with
    | some mail =>
      rw [hm] at hi
      cases hi
      exact ⟨.scheduled, by simp only [Worker.item?, hm]⟩
    | none =>
      rw [hm] at hi
      obtain ⟨x', hx⟩ := hkeep work x hi
      exact ⟨x', by simp only [Worker.item?, hm, hbefore, hx]⟩
  cases h with
  | take hthread hmailbox =>
    refine ha.setWorker ?_
    intro work x hi
    cases hi
    refine ⟨.scheduled, ?_⟩
    rw [show s.pool.workers w = s.worker w from rfl]
    simp only [Worker.item?, hmailbox]
  | leave hthread hmailbox hstopping =>
    refine ha.setWorker ?_
    intro work x hi
    simp only [Worker.item?, hmailbox] at hi
    cases hi
  | becomeIdle hthread => exact ha.setWorker (move hthread (fun _ _ h => by cases h))
  | markRunning hthread _ _ | invoke hthread | leaveHandler _ hthread =>
    refine hev.setWorker (move hthread ?_)
    intro work x hi
    cases hi
    exact ⟨_, rfl⟩
  | complete thread hthread _ _ hnext =>
    refine hev.setWorker (move hthread ?_)
    intro work x hi
    obtain rfl | ⟨completion, -, rfl⟩ := hnext <;> cases hi
  | reported hthread | erase hthread _ _ | eraseNone hthread _ _ | release hthread
  | wake _ hthread | announce hthread =>
    exact ha.setWorker (move hthread (fun _ _ h => by cases h))

theorem poolsEffect_agreement {rm : ResourceManager} (h : PoolsEffect s rm pool)
    (hs : Slots s.pool s.holder) (ha : Agreement s.taskManager s.pool s.holder) :
    Agreement s.taskManager pool s.holder := by
  cases h with
  | same | register => exact ha
  | startPool =>
    refine { ha with items := ?_ }
    intro w work x hi
    rw [item?_start hs] at hi
    exact ha.items w work x hi
  | closePool => exact ⟨ha.records, ha.items, ha.placed, ha.bound⟩
  | requestStop w => exact ha.setWorker (fun work x hi => ⟨x, hi⟩)
  | reset hexited hloop =>
    exact ha.setWorker (fun work x hi => by simp [Worker.item?, Worker.reset, Thread.item?] at hi)

end LocalSystem

end AgentRuntime
