import AgentRuntime.Library.Matching
import AgentRuntime.Local.Slots

/-!
# Who holds which task

A scheduled or running task names its worker in the record, and a worker holds
the item it was given until the execution has been completed. The two sides
match in every reachable state; between `MarkScheduled` and `DispatchReserved`
the item is still with the scheduler and counts as held by the worker.
-/
namespace AgentRuntime

namespace LocalSystem

variable {submitting : TaskSpec → TaskHandler → Prop}
  {tm tm' : TaskManager} {queue queue' : TaskQueue} {holder holder' : Option Holder}
  {pool : WorkerPool}

def ownerOf (record : TaskRecord) : Option (WorkerID × ExecutionState) :=
  if record.state = .scheduled ∨ record.state = .running then
    record.worker.map (fun w => (w, record.state))
  else none

/-- What the record of a task says. -/
def owner (tm : TaskManager) (t : TaskID) : Option (WorkerID × ExecutionState) :=
  (tm.records.lookup t).bind ownerOf

/-- The item that the scheduler is about to put into the mailbox of a worker. -/
def Holder.inHand (holder : Option Holder) (w : WorkerID) : Option (TaskID × ExecutionState) :=
  match holder with
  | some (.scheduling (.dispatching p work)) =>
    if p.worker = w then some (work.spec.id, .scheduled) else none
  | _ => none

/-- What a worker holds. -/
def holding (pool : WorkerPool) (holder : Option Holder) (w : WorkerID) :
    Option (TaskID × ExecutionState) :=
  match (pool.workers w).item? with
  | some (work, state) => some (work.spec.id, state)
  | none => Holder.inHand holder w

theorem owner_store (tm : TaskManager) (t : TaskID) (record : TaskRecord) :
    owner (tm.store t record) = Function.update (owner tm) t (ownerOf record) := by
  funext t'
  simp only [owner, TaskManager.lookup_store, Function.update_apply]
  split <;> simp

/-- A record changes without changing hands. -/
theorem owner_store_eq {t : TaskID} {record : TaskRecord} (h : owner tm t = ownerOf record) :
    owner (tm.store t record) = owner tm := by
  rw [owner_store, ← h, Function.update_eq_self]

theorem owner_of_lookup {t : TaskID} {record : TaskRecord}
    (h : tm.records.lookup t = some record) : owner tm t = ownerOf record := by
  simp [owner, h]

theorem ownerOf_eq_none {record : TaskRecord} (hs : record.state ≠ .scheduled)
    (hr : record.state ≠ .running) : ownerOf record = none := by
  simp [ownerOf, hs, hr]

/-- Only what the written worker holds can change. -/
theorem holding_set (pool : WorkerPool) (holder : Option Holder) (w : WorkerID) (worker : Worker) :
    holding (pool.set w worker) holder =
      Function.update (holding pool holder) w
        (match worker.item? with
          | some (work, state) => some (work.spec.id, state)
          | none => Holder.inHand holder w) := by
  funext w'
  by_cases he : w' = w
  · subst he
    simp [holding]
  · simp [holding, he]

/-- A worker changes without giving up or taking an item. -/
theorem holding_set_eq {w : WorkerID} {worker : Worker}
    (h : worker.item? = (pool.workers w).item?) :
    holding (pool.set w worker) holder = holding pool holder := by
  rw [holding_set, h]
  exact Function.update_eq_self w (holding pool holder)

theorem holding_rehold (h : Holder.inHand holder' = Holder.inHand holder) :
    holding pool holder' = holding pool holder := by
  funext w
  simp only [holding, h]

structure Ownership (tm : TaskManager) (pool : WorkerPool) (holder : Option Holder) : Prop where
  matched : Matched (owner tm) (holding pool holder)
  assigned : ∀ t record, tm.records.lookup t = some record →
    record.state = .scheduled ∨ record.state = .running → record.worker.isSome = true

theorem ownership_initial (workerIds : List WorkerID) (callback : Bool) :
    Ownership ⟨∅, callback⟩ (.new workerIds) none where
  matched t w x := by
    simp [owner, holding, WorkerPool.new, Worker.new, Worker.item?, Thread.item?, Holder.inHand]
  assigned t record h := by simp at h

theorem Ownership.rehold (h : Ownership tm pool holder)
    (hh : Holder.inHand holder' = Holder.inHand holder) : Ownership tm pool holder' :=
  ⟨h.matched.congr rfl (holding_rehold hh), h.assigned⟩

theorem Ownership.setWorker (h : Ownership tm pool holder) {w : WorkerID} {worker : Worker}
    (hi : worker.item? = (pool.workers w).item?) : Ownership tm (pool.set w worker) holder :=
  ⟨h.matched.congr rfl (holding_set_eq hi), h.assigned⟩

/-- A record changes without changing hands. -/
theorem Ownership.store (h : Ownership tm pool holder) {t : TaskID} {record : TaskRecord}
    (ho : owner tm t = ownerOf record)
    (ha : record.state = .scheduled ∨ record.state = .running → record.worker.isSome = true) :
    Ownership (tm.store t record) pool holder where
  matched := h.matched.congr (owner_store_eq ho) rfl
  assigned := by
    intro t' record' hl hs
    rw [TaskManager.lookup_store] at hl
    split at hl
    · cases hl
      exact ha hs
    · exact h.assigned t' record' hl hs

/-- A task that is not scheduled or running changes into one that is not. -/
theorem Ownership.storeFree (h : Ownership tm pool holder) {t : TaskID} {record : TaskRecord}
    (ho : owner tm t = none) (hs : record.state ≠ .scheduled) (hr : record.state ≠ .running) :
    Ownership (tm.store t record) pool holder :=
  h.store (ho.trans (ownerOf_eq_none hs hr).symm) (fun he => by simp [hs, hr] at he)

/-- What a worker holds is scheduled or running on that worker. -/
theorem Ownership.record_of_holding (h : Ownership tm pool holder) {w : WorkerID} {t : TaskID}
    {x : ExecutionState} (hw : holding pool holder w = some (t, x)) :
    ∃ record, tm.records.lookup t = some record ∧ record.state = x ∧ record.worker = some w := by
  have ho := (h.matched t w x).mpr hw
  simp only [owner, Option.bind_eq_some_iff] at ho
  obtain ⟨record, hl, hr⟩ := ho
  simp only [ownerOf] at hr
  split at hr
  · obtain ⟨w', hw', he⟩ := Option.map_eq_some_iff.mp hr
    cases he
    exact ⟨record, hl, rfl, hw'⟩
  · cases hr

/-- A scheduled or running task is held by the worker it names. -/
theorem Ownership.holding_of_record (h : Ownership tm pool holder) {t : TaskID}
    {record : TaskRecord} (hl : tm.records.lookup t = some record)
    (hs : record.state = .scheduled ∨ record.state = .running) :
    ∃ w, record.worker = some w ∧ holding pool holder w = some (t, record.state) := by
  obtain ⟨w, hw⟩ := Option.isSome_iff_exists.mp (h.assigned t record hl hs)
  refine ⟨w, hw, (h.matched t w record.state).mp ?_⟩
  simp [owner, hl, ownerOf, hs, hw]

theorem callEffect_ownership (h : CallEffect submitting tm queue holder tm' queue' holder')
    (ho : Ownership tm pool holder) : Ownership tm' pool holder' := by
  cases h with
  | same => exact ho
  | register holder _ hnew _ =>
    exact ho.storeFree (by simp [owner, hnew]) (by simp [TaskManager.newRecord])
      (by simp [TaskManager.newRecord])
  | beginEnqueue | beginRemove | beginCancel | push | remove | refuseEnqueue | refuseCancel
  | «return» => exact ho.rehold rfl
  | markQueued hrecord hpending =>
    refine (ho.storeFree ?_ ?_ ?_).rehold rfl
    · rw [owner_of_lookup hrecord]
      exact ownerOf_eq_none (by simp [hpending]) (by simp [hpending])
    · simp
    · simp
  | cancelQueued hrecord hqueued =>
    refine (ho.storeFree ?_ ?_ ?_).rehold rfl
    · rw [owner_of_lookup hrecord]
      exact ownerOf_eq_none (by simp [hqueued]) (by simp [hqueued])
    · simp [TaskManager.cancelledRecord]
    · simp [TaskManager.cancelledRecord]
  | @cancelRunning k t queued record hrecord hrunning =>
    refine (ho.store ?_ ?_).rehold rfl
    · rw [owner_of_lookup hrecord]
      rfl
    · exact fun hst => ho.assigned t record hrecord hst

variable {s u : State} {evs : List Event}

theorem loopEffect_ownership (h : LoopEffect s evs u) (hs : Slots s.pool s.holder)
    (hspec : ∀ p handler token, s.holder = some (.scheduling (.marking p handler token)) →
      p.spec.id = p.task)
    (ho : Ownership s.taskManager s.pool s.holder) :
    Ownership u.taskManager u.pool u.holder := by
  -- a reserved worker holds nothing
  have hempty : ∀ p, Holder.reserved? s.holder = some p → (s.pool.workers p).item? = none := by
    intro w hw
    exact (hs.wellFormed w).item?_eq_none (by simp [(hs.reserved w).mpr hw])
  cases h with
  | rest => exact ho
  | peek hfree _ _ => exact ho.rehold (by rw [hfree]; rfl)
  | spec hholder _ | observe _ hholder _ | choose hholder | skip hholder | select hholder _
  | acquire hholder _ | handler hholder _ | token hholder | pop hholder _ =>
    exact ho.rehold (by rw [hholder]; rfl)
  | giveUp hholder hphase =>
    refine ho.rehold ?_
    rw [hholder]
    obtain ⟨_, _, _, rfl⟩ | ⟨_, _, rfl⟩ := hphase <;> rfl
  | reserve hholder _ _ =>
    refine (ho.setWorker ?_).rehold ?_
    · rfl
    · rw [hholder]
      rfl
  | @mark p handler token record executionId hholder hrecord hqueued =>
    have hnone : owner s.taskManager p.task = none := by
      rw [owner_of_lookup hrecord]
      exact ownerOf_eq_none (by simp [hqueued]) (by simp [hqueued])
    have hfree : holding s.pool s.holder p.worker = none := by
      simp [holding, hempty p.worker (by rw [hholder]; rfl), hholder, Holder.inHand]
    have hassign := ho.matched.assign .scheduled hnone hfree
    refine ⟨hassign.congr ?_ ?_, ?_⟩
    · exact owner_store _ _ _
    · funext w
      simp only [State.setTry, holding, Function.update_apply, Holder.inHand, hholder]
      by_cases hw : w = p.worker
      · subst hw
        simp [hempty p.worker (by rw [hholder]; rfl), hspec p handler token hholder]
      · simp [hw, Ne.symm hw]
    · intro t record' hl hst
      simp only [State.setTry, TaskManager.lookup_store] at hl
      split at hl
      · cases hl
        rfl
      · exact ho.assigned t record' hl hst
  | @dispatch p work hholder _ _ _ _ =>
    refine ⟨ho.matched.congr rfl ?_, ho.assigned⟩
    have hitem := hempty p.worker (by rw [hholder]; rfl)
    funext w
    simp only [State.tryReturns, State.setWorker, holding, WorkerPool.workers_set, hholder,
      Holder.inHand]
    by_cases hw : w = p.worker
    · subst hw
      simp only [if_true, hitem]
      rfl
    · simp [hw, Ne.symm hw]

theorem threadEffect_ownership {w : WorkerID} (h : ThreadEffect s w evs u)
    (hs : Slots s.pool s.holder) (ho : Ownership s.taskManager s.pool s.holder) :
    Ownership u.taskManager u.pool u.holder := by
  have hwf : (s.worker w).WellFormed := hs.wellFormed w
  -- a thread moves without taking or completing an item
  have move : ∀ {before after : Thread}, (s.worker w).thread = before →
      after.item? = before.item? → ((s.worker w).setThread after).item? = (s.worker w).item? := by
    intro before after hbefore he
    simp only [Worker.item?, Worker.setThread, hbefore, he]
  cases h with
  | take hthread hmailbox =>
    refine ho.setWorker ?_
    rw [show s.pool.workers w = s.worker w from rfl]
    simp only [Worker.item?, hmailbox]
    rfl
  | leave hthread hmailbox hstopping =>
    refine ho.setWorker ?_
    rw [show s.pool.workers w = s.worker w from rfl]
    simp only [Worker.item?, hmailbox, hthread]
    rfl
  | invoke hthread | leaveHandler _ hthread | reported hthread | erase hthread _ _
  | eraseNone hthread _ _ | release hthread | wake _ hthread | announce hthread =>
    exact ho.setWorker (move hthread rfl)
  | becomeIdle hthread => exact ho.setWorker (move hthread rfl : _ = _)
  | @markRunning work record hthread hrecord hscheduled =>
    have hitem := hwf.item?_of_thread (by rw [hthread]; rfl)
    have hhold : holding s.pool s.holder w = some (work.spec.id, .scheduled) := by
      simp only [holding]
      rw [show (s.pool.workers w).item? = _ from hitem]
    obtain ⟨record', hl, -, hworker⟩ := ho.record_of_holding hhold
    rw [show s.taskManager.records.lookup _ = _ from hrecord] at hl
    cases hl
    have hmailbox := (hwf.at_work (by rw [hthread]; rfl)).2
    refine ⟨(ho.matched.change .running hhold).congr ?_ ?_, ?_⟩
    · show owner (s.taskManager.store work.spec.id { record with state := .running }) = _
      rw [owner_store]
      simp [ownerOf, hworker]
    · show holding (s.pool.set w ((s.worker w).setThread (.marked work))) s.holder = _
      rw [holding_set]
      simp [Worker.item?, Worker.setThread, hmailbox, Thread.item?]
    · intro t record' hl hst
      simp only [State.setThread, State.setWorker, TaskManager.lookup_store] at hl
      split at hl
      · cases hl
        simp [hworker]
      · exact ho.assigned t record' hl hst
  | @complete work outcome record thread hthread hrecord hrunning hnext =>
    have hitem := hwf.item?_of_thread (by rw [hthread]; rfl)
    have hhold : holding s.pool s.holder w = some (work.spec.id, .running) := by
      simp only [holding]
      rw [show (s.pool.workers w).item? = _ from hitem]
    obtain ⟨hbusy, hmailbox⟩ := hwf.at_work (by rw [hthread]; rfl)
    have hterm := TaskManager.isTerminal_terminalState outcome.status
    have hgone : thread.item? = none := by
      obtain rfl | ⟨completion, -, rfl⟩ := hnext <;> rfl
    -- the worker is busy, so the scheduler has nothing in hand for it
    have hhand : Holder.inHand s.holder w = none := by
      have hnot := hs.reserved w
      rw [show (s.pool.workers w).state = .busy from hbusy] at hnot
      simp only [Holder.inHand]
      split
      · rename_i p work' hh
        rw [hh] at hnot
        rw [if_neg]
        intro he
        simp [Holder.reserved?, he] at hnot
      · rfl
    have hfree : ∀ {state : ExecutionState}, state.isTerminal = true →
        state ≠ .scheduled ∧ state ≠ .running := by
      intro state hs
      cases state <;> simp_all [ExecutionState.isTerminal]
    refine ⟨(ho.matched.clear hhold).congr ?_ ?_, ?_⟩
    · show owner (s.taskManager.store work.spec.id _) = _
      rw [owner_store, ownerOf_eq_none (hfree hterm).1 (hfree hterm).2]
    · show holding (s.pool.set w ((s.worker w).setThread thread)) s.holder = _
      rw [holding_set]
      simp [Worker.item?, Worker.setThread, hmailbox, hgone, hhand]
    · intro t record' hl hst
      simp only [State.setThread, State.setWorker, TaskManager.lookup_store] at hl
      split at hl
      · cases hl
        obtain hst | hst := hst
        · exact absurd hst (hfree hterm).1
        · exact absurd hst (hfree hterm).2
      · exact ho.assigned t record' hl hst

theorem holding_start (hs : Slots pool holder) :
    holding pool.start.2 holder = holding pool holder := by
  funext w
  simp only [holding, item?_start hs]

theorem poolsEffect_ownership {rm : ResourceManager} (h : PoolsEffect s rm pool)
    (hs : Slots s.pool s.holder) (ho : Ownership s.taskManager s.pool s.holder) :
    Ownership s.taskManager pool s.holder := by
  cases h with
  | same | register => exact ho
  | startPool => exact ⟨ho.matched.congr rfl (holding_start hs), ho.assigned⟩
  | closePool => exact ⟨ho.matched, ho.assigned⟩
  | requestStop w => exact ho.setWorker rfl
  | @reset w hexited hloop =>
    refine ho.setWorker ?_
    have hmailbox := ((hs.wellFormed w).left hexited).2
    simp only [Worker.item?, hmailbox]
    rw [show (s.pool.workers w).thread = .exited from hexited]
    rfl

end LocalSystem

end AgentRuntime
