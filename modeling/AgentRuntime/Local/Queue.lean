import AgentRuntime.Local.Effects

/-!
# The queue and the queued tasks

The queue and the task manager have separate mutexes, and `Enqueue`, `Cancel`
and `TryScheduleOne` write to one after the other. In between one task is
queued in its record without being in the queue. The owner of `Scheduler::mu_`
knows which.
-/
namespace AgentRuntime

namespace LocalSystem

namespace Holder

/-- The task that is queued in its record and not in the queue. -/
def limbo : Option Holder → Option TaskID
  | some (.enqueuePush _ t) | some (.cancelTask _ t true) => some t
  | some (.scheduling (.marking p _ _)) => some p.task
  | _ => none

/-- The task that `TryScheduleOne` has peeked and not yet popped. -/
def head? : Option Holder → Option TaskID
  | some (.scheduling phase) =>
    match phase with
    | .fetchingSpec t | .observing t _ _ _ | .selecting t _ _ => some t
    | .reserving p | .acquiring p | .fetchingHandler p | .fetchingToken p _
    | .popping p _ _ => some p.task
    | .marking _ _ _ | .dispatching _ _ | .undoRelease _ | .undoReserve _ => none
  | _ => none

end Holder

def IsQueued (tm : TaskManager) (t : TaskID) : Prop :=
  ∃ record, tm.records.lookup t = some record ∧ record.state = .queued

structure Queueing (tm : TaskManager) (queue : TaskQueue) (holder : Option Holder) : Prop where
  nodup : queue.Nodup
  queued : ∀ t, IsQueued tm t ↔ t ∈ queue ∨ Holder.limbo holder = some t
  limbo : ∀ t, Holder.limbo holder = some t → t ∉ queue
  head : ∀ t, Holder.head? holder = some t → ∃ rest, queue = t :: rest
  removing : ∀ k t, holder = some (.cancelRemove k t) → t ∈ queue
  cancelling : ∀ k t, holder = some (.cancelTask k t false) → ¬ IsQueued tm t

theorem queueing_initial (callback : Bool) : Queueing ⟨∅, callback⟩ [] none where
  nodup := List.nodup_nil
  queued t := by simp [IsQueued, Holder.limbo]
  limbo _ h := by cases h
  head _ h := by cases h
  removing _ _ h := by cases h
  cancelling _ _ h := by cases h

variable {submitting : TaskSpec → TaskHandler → Prop}
  {tm tm' : TaskManager} {queue queue' : TaskQueue} {holder holder' : Option Holder}

theorem isQueued_store (id t : TaskID) (record : TaskRecord) :
    IsQueued (tm.store id record) t ↔ if t = id then record.state = .queued else IsQueued tm t := by
  simp only [IsQueued, TaskManager.lookup_store]
  split <;> simp

theorem isQueued_of_lookup {t : TaskID} {record : TaskRecord}
    (h : tm.records.lookup t = some record) : IsQueued tm t ↔ record.state = .queued := by
  simp [IsQueued, h]

/-- Changing a task that is not queued into one that is not queued. -/
theorem isQueued_store_of_not {id : TaskID} {record : TaskRecord} (hold : ¬ IsQueued tm id)
    (hnew : record.state ≠ .queued) (t : TaskID) :
    IsQueued (tm.store id record) t ↔ IsQueued tm t := by
  rw [isQueued_store]
  split
  · rename_i he
    simp [he, hold, hnew]
  · rfl

theorem Queueing.tasks (h : Queueing tm queue holder)
    (hq : ∀ t, IsQueued tm' t ↔ IsQueued tm t) : Queueing tm' queue holder :=
  { h with
    queued := fun t => (hq t).trans (h.queued t)
    cancelling := fun k t he => by
      rw [hq]
      exact h.cancelling k t he }

/-- The owner of the mutex goes to a phase in which nothing is in limbo or peeked. -/
theorem Queueing.rehold (h : Queueing tm queue holder) (hfree : Holder.limbo holder = none)
    (hlimbo : Holder.limbo holder' = none)
    (hhead : ∀ t, Holder.head? holder' = some t → ∃ rest, queue = t :: rest)
    (hremoving : ∀ k t, holder' = some (.cancelRemove k t) → t ∈ queue)
    (hcancelling : ∀ k t, holder' = some (.cancelTask k t false) → ¬ IsQueued tm t) :
    Queueing tm queue holder' where
  nodup := h.nodup
  queued t := by
    rw [h.queued t, hfree, hlimbo]
  limbo t ht := by
    rw [hlimbo] at ht
    cases ht
  head := hhead
  removing := hremoving
  cancelling := hcancelling

/-- A queued task leaves the queued state, out of limbo. -/
theorem Queueing.settle (h : Queueing tm queue holder) {t : TaskID} {record : TaskRecord}
    (ht : Holder.limbo holder = some t) (hnew : record.state ≠ .queued)
    (hlimbo : Holder.limbo holder' = none) (hhead : Holder.head? holder' = none)
    (hremoving : ∀ k t, holder' ≠ some (.cancelRemove k t))
    (hcancelling : ∀ k t, holder' ≠ some (.cancelTask k t false)) :
    Queueing (tm.store t record) queue holder' where
  nodup := h.nodup
  queued t' := by
    rw [isQueued_store, hlimbo]
    have hold := h.queued t'
    rw [ht] at hold
    split
    · rename_i he
      subst he
      simp [hnew, h.limbo t' ht]
    · rename_i hne
      simp [hold, Ne.symm hne]
  limbo _ hl := by
    rw [hlimbo] at hl
    cases hl
  head _ hp := by
    rw [hhead] at hp
    cases hp
  removing k t he := absurd he (hremoving k t)
  cancelling k t he := absurd he (hcancelling k t)

theorem callEffect_queueing (h : CallEffect submitting tm queue holder tm' queue' holder')
    (hq : Queueing tm queue holder) : Queueing tm' queue' holder' := by
  cases h with
  | same => exact hq
  | register holder _ hnew hhandler =>
    exact hq.tasks (isQueued_store_of_not (by simp [IsQueued, hnew])
      (by simp [TaskManager.newRecord]))
  | beginEnqueue | refuseEnqueue | refuseCancel | «return» =>
    exact hq.rehold rfl rfl (fun _ h => by cases h) (fun _ _ h => by cases h)
      (fun _ _ h => by cases h)
  | @beginRemove k t record hrecord hqueued =>
    refine hq.rehold rfl rfl (fun _ h => by cases h) ?_ (fun _ _ h => by cases h)
    intro k' t' he
    cases he
    obtain hmem | hl := (hq.queued t).mp ((isQueued_of_lookup hrecord).mpr hqueued)
    · exact hmem
    · cases hl
  | beginCancel hrecord hqueued =>
    refine hq.rehold rfl rfl (fun _ h => by cases h) (fun _ _ h => by cases h) ?_
    intro k t he
    cases he
    rw [isQueued_of_lookup hrecord]
    exact hqueued
  | @markQueued k t record hrecord hpending =>
    have hnot : ¬ IsQueued tm t := by simp [isQueued_of_lookup hrecord, hpending]
    exact {
      nodup := hq.nodup
      queued := by
        intro t'
        rw [isQueued_store]
        split
        · rename_i he
          simp [he, Holder.limbo]
        · rename_i hne
          rw [hq.queued t']
          simp [Holder.limbo, Ne.symm hne]
      limbo := by
        intro t' hl hmem
        cases hl
        exact hnot ((hq.queued t).mpr (.inl hmem))
      head := fun _ h => by cases h
      removing := fun _ _ h => by cases h
      cancelling := fun _ _ h => by cases h }
  | push k t =>
    have hfresh := hq.limbo t rfl
    exact {
      nodup := by
        rw [List.nodup_append]
        refine ⟨hq.nodup, List.nodup_singleton t, ?_⟩
        rintro a ha b hb rfl
        rw [List.mem_singleton] at hb
        exact hfresh (hb ▸ ha)
      queued := by
        intro t'
        rw [hq.queued t']
        simp [Holder.limbo, eq_comm]
      limbo := fun _ h => by cases h
      head := fun _ h => by cases h
      removing := fun _ _ h => by cases h
      cancelling := fun _ _ h => by cases h }
  | @remove k t hmem =>
    exact {
      nodup := hq.nodup.erase t
      queued := by
        intro t'
        rw [hq.queued t', hq.nodup.mem_erase_iff]
        by_cases he : t' = t
        · simp [he, hmem, Holder.limbo]
        · simp [he, Ne.symm he, Holder.limbo]
      limbo := by
        intro t' hl
        cases hl
        exact hq.nodup.not_mem_erase
      head := fun _ h => by cases h
      removing := fun _ _ h => by cases h
      cancelling := fun _ _ h => by cases h }
  | @cancelQueued k t queued record completion hrecord hqueued =>
    cases queued with
    | true =>
      exact hq.settle rfl (by simp [TaskManager.cancelledRecord]) rfl rfl (fun _ _ h => by cases h)
        (fun _ _ h => by cases h)
    | false => exact absurd ⟨record, hrecord, hqueued⟩ (hq.cancelling k t rfl)
  | @cancelRunning k t queued record hrecord hrunning =>
    have hnot : ¬ IsQueued tm t := by simp [isQueued_of_lookup hrecord, hrunning]
    cases queued with
    | true => exact absurd ((hq.queued t).mpr (.inr rfl)) hnot
    | false =>
      exact (hq.rehold rfl rfl (fun _ h => by cases h) (fun _ _ h => by cases h)
        (fun _ _ h => by cases h)).tasks (isQueued_store_of_not hnot (by simp [hrunning]))

variable {s u : State} {evs : List Event}

theorem loopEffect_queueing (h : LoopEffect s evs u)
    (hq : Queueing s.taskManager s.queue s.holder) :
    Queueing u.taskManager u.queue u.holder := by
  -- a phase before the pop is followed by one with the same peeked task
  have keep : ∀ {phase phase' : TryPhase}, s.holder = some (.scheduling phase) →
      Holder.limbo (some (.scheduling phase)) = none →
      Holder.limbo (some (.scheduling phase')) = none →
      Holder.head? (some (.scheduling phase')) = Holder.head? (some (.scheduling phase)) →
      Queueing s.taskManager s.queue (some (.scheduling phase')) := by
    intro phase phase' hholder hl hl' hh
    refine hq.rehold (by rw [hholder]; exact hl) hl' ?_ (fun _ _ h => by cases h)
      (fun _ _ h => by cases h)
    intro t ht
    rw [hh, ← hholder] at ht
    exact hq.head t ht
  -- and giving up the mutex loses no task unless one is in limbo
  have leave : ∀ {phase : TryPhase}, s.holder = some (.scheduling phase) →
      Holder.limbo (some (.scheduling phase)) = none → Queueing s.taskManager s.queue none := by
    intro phase hholder hl
    exact hq.rehold (by rw [hholder]; exact hl) rfl (fun _ h => by cases h)
      (fun _ _ h => by cases h) (fun _ _ h => by cases h)
  cases h with
  | rest => exact hq
  | @peek t rest hfree _ hqueue =>
    refine hq.rehold (by rw [hfree]; rfl) rfl ?_ (fun _ _ h => by cases h)
      (fun _ _ h => by cases h)
    intro t' ht
    cases ht
    exact ⟨rest, hqueue⟩
  | spec hholder _ | observe _ hholder _ | choose hholder | skip hholder | select hholder _
  | reserve hholder _ _ | acquire hholder _ | handler hholder _ | token hholder =>
    exact keep hholder rfl rfl rfl
  | giveUp hholder hphase =>
    refine leave hholder ?_
    obtain ⟨_, _, _, rfl⟩ | ⟨_, _, rfl⟩ := hphase <;> rfl
  | @pop p handler token rest hholder hqueue =>
    have hnodup := hq.nodup
    have hqueued := hq.queued
    rw [hqueue] at hnodup hqueued
    rw [hholder] at hqueued
    obtain ⟨hfresh, hrest⟩ := List.nodup_cons.mp hnodup
    show Queueing s.taskManager rest (some (.scheduling (.marking p handler token)))
    exact {
      nodup := hrest
      queued := by
        intro t
        rw [hqueued t]
        simp [Holder.limbo, or_comm, eq_comm]
      limbo := by
        intro t hl
        cases hl
        exact hfresh
      head := fun _ h => by cases h
      removing := fun _ _ h => by cases h
      cancelling := fun _ _ h => by cases h }
  | mark _ hholder hrecord hqueued =>
    exact hq.settle (by rw [hholder]; rfl) (by simp) rfl rfl (fun _ _ h => by cases h)
      (fun _ _ h => by cases h)
  | dispatch hholder _ _ _ _ => exact leave hholder rfl

theorem threadEffect_queueing {w : WorkerID} (h : ThreadEffect s w evs u)
    (hq : Queueing s.taskManager s.queue s.holder) :
    Queueing u.taskManager u.queue u.holder := by
  cases h with
  | take | leave | invoke | leaveHandler | reported | becomeIdle | erase | eraseNone | release
  | wake | announce => exact hq
  | markRunning hthread hrecord hscheduled =>
    refine hq.tasks (isQueued_store_of_not ?_ (by simp))
    rw [isQueued_of_lookup hrecord, hscheduled]
    simp
  | complete thread hthread hrecord hrunning hnext =>
    refine hq.tasks (isQueued_store_of_not ?_ ?_)
    · rw [isQueued_of_lookup hrecord, hrunning]
      simp
    · exact TaskManager.terminalState_ne_queued _

end LocalSystem

end AgentRuntime
