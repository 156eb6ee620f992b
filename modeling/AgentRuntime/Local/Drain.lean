import AgentRuntime.Local.LocalLedger
import AgentRuntime.Local.Moves

/-!
# Drain means drained

`Drain` takes an empty `running_` for the end of all dispatched work. That is
right as long as every worker that has been given a task, or is about to be,
has its own entry: an idle callback must not find the entry of a later task.
-/
namespace AgentRuntime

namespace LocalSystem

/-- A call of `Drain`, by a client or by `Shutdown`, finds its predicate true and returns OK. -/
def DrainReturned (s u : State) : Prop :=
  (∃ k, s.drains.lookup k ≠ some (some .OK) ∧ u.drains.lookup k = some (some .OK)) ∨
    s.control ≠ .stoppingScheduler ∧ u.control = .stoppingScheduler

/-- No task waits in the queue or is with a worker. -/
def NothingLeft (s : State) : Prop := ∀ t record, s.record t = some record →
  record.state ≠ .queued ∧ record.state ≠ .scheduled ∧ record.state ≠ .running

/-! ## Every worker at work has its entry -/

/-- `Occupied` workers have an entry, and an idle callback that is about to remove it is the
last that its worker has to do with the task. -/
structure Entered (running : UnorderedMap WorkerID RunningReservation) (pool : WorkerPool)
    (holder : Option Holder) : Prop where
  entry : ∀ w, Occupied pool holder w → running.lookup w ≠ none
  last : ∀ w, (pool.workers w).thread = .notifying → (pool.workers w).state ≠ .busy ∧
    ∀ p work, holder = some (.scheduling (.dispatching p work)) → p.worker ≠ w

variable {running : UnorderedMap WorkerID RunningReservation} {pool : WorkerPool}
  {holder holder' : Option Holder} {s u : State} {evs : List Event}

theorem entered_initial (workerIds : List WorkerID) : Entered ∅ (.new workerIds) none where
  entry w h := by
    obtain h | h | ⟨p, work, h, -⟩ := h
    · cases h
    · cases h
    · cases h
  last w h := by cases h

/-- `Scheduler::mu_` passes on, and no dispatch begins. -/
theorem Entered.rehold (h : Entered running pool holder)
    (hdisp : ∀ p work, holder' = some (.scheduling (.dispatching p work)) →
      holder = some (.scheduling (.dispatching p work))) : Entered running pool holder' where
  entry w hocc := by
    obtain hbusy | hnote | ⟨p, work, hp, hw⟩ := hocc
    · exact h.entry w (.inl hbusy)
    · exact h.entry w (.inr (.inl hnote))
    · exact h.entry w (.inr (.inr ⟨p, work, hdisp p work hp, hw⟩))
  last w hnote := by
    obtain ⟨hbusy, hother⟩ := h.last w hnote
    exact ⟨hbusy, fun p work hp => hother p work (hdisp p work hp)⟩

/-- A worker changes without being occupied anew. -/
theorem Entered.setWorker (h : Entered running pool holder) {w : WorkerID} {worker : Worker}
    (hbusy : worker.state = .busy → (pool.workers w).state = .busy)
    (hnote : worker.thread = .notifying → (pool.workers w).thread = .notifying) :
    Entered running (pool.set w worker) holder where
  entry w' hocc := by
    refine h.entry w' ?_
    simp only [Occupied, WorkerPool.workers_set] at hocc
    split at hocc
    · rename_i he
      subst he
      obtain hb | hn | hd := hocc
      · exact .inl (hbusy hb)
      · exact .inr (.inl (hnote hn))
      · exact .inr (.inr hd)
    · exact hocc
  last w' hn := by
    rw [WorkerPool.workers_set] at hn ⊢
    split at hn
    · rename_i he
      subst he
      obtain ⟨hold, hother⟩ := h.last w' (hnote hn)
      rw [if_pos rfl]
      exact ⟨fun hb => hold (hbusy hb), hother⟩
    · rename_i he
      rw [if_neg he]
      exact h.last w' hn

theorem loopEffect_entered (h : LoopEffect s evs u)
    (hfree : ∀ p handler token, s.holder = some (.scheduling (.marking p handler token)) →
      s.running.lookup p.worker = none)
    (he : Entered s.running s.pool s.holder) : Entered u.running u.pool u.holder := by
  cases h with
  | rest => exact he
  | peek | spec | observe | choose | skip | select | giveUp | acquire | handler | token | pop =>
    exact he.rehold (fun _ _ hp => by cases hp)
  | @reserve p hholder hstarted hidle =>
    have hset : Entered s.running (s.pool.set p.worker { s.worker p.worker with state := .reserved })
        s.holder := he.setWorker (fun hb => by cases hb) id
    exact hset.rehold (fun _ _ hp => by cases hp)
  | @mark p handler token record executionId hholder hrecord hqueued =>
    have hnone := hfree p handler token hholder
    have hlookup : ∀ w, (s.running.emplace p.worker ⟨p.task, p.spec.resources⟩).lookup w =
        if w = p.worker then some ⟨p.task, p.spec.resources⟩ else s.running.lookup w :=
      UnorderedMap.lookup_emplace_of_none _ hnone
    refine ⟨fun w hocc => ?_, fun w hnote => ?_⟩
    · simp only [State.setTry, hlookup]
      split
      · simp
      · rename_i hw
        obtain hbusy | hnote | ⟨p', work, hp, hp'⟩ := hocc
        · exact he.entry w (.inl hbusy)
        · exact he.entry w (.inr (.inl hnote))
        · cases hp
          exact absurd hp'.symm hw
    · refine ⟨(he.last w hnote).1, fun p' work hp hw => ?_⟩
      cases hp
      -- the callback of the worker is still to come, so its entry is still there
      exact he.entry w (.inr (.inl hnote)) (hw ▸ hnone)
  | @dispatch p work hholder hstarted hstopping hreserved hmailbox =>
    refine ⟨fun w hocc => ?_, fun w hnote => ?_⟩
    · refine he.entry w ?_
      simp only [Occupied, State.tryReturns, State.setWorker, WorkerPool.workers_set] at hocc
      split at hocc
      · rename_i hw
        exact .inr (.inr ⟨p, work, hholder, hw.symm⟩)
      · obtain hbusy | hnote | ⟨p', work', hp, -⟩ := hocc
        · exact .inl hbusy
        · exact .inr (.inl hnote)
        · cases hp
    · simp only [State.tryReturns, State.setWorker, WorkerPool.workers_set] at hnote ⊢
      split at hnote
      · rename_i hw
        exact absurd hw.symm ((he.last w (hw ▸ hnote)).2 p work hholder)
      · rename_i hw
        rw [if_neg hw]
        exact ⟨(he.last w hnote).1, fun _ _ hp => by cases hp⟩

theorem threadEffect_entered {w : WorkerID} (h : ThreadEffect s w evs u)
    (hs : Slots s.pool s.holder) (he : Entered s.running s.pool s.holder) :
    Entered u.running u.pool u.holder := by
  cases h with
  | take | leave | markRunning | invoke | leaveHandler | reported | eraseNone | release | wake
  | announce =>
    exact he.setWorker id (fun hn => by cases hn)
  | complete thread hthread _ _ hnext =>
    refine he.setWorker id (fun hn => ?_)
    obtain rfl | ⟨completion, -, rfl⟩ := hnext <;> cases hn
  | becomeIdle hthread =>
    have hbusy : (s.pool.workers w).state = .busy := by
      have hwf : (s.worker w).WellFormed := hs.wellFormed w
      exact (hwf.at_work (by rw [hthread]; rfl)).1
    refine ⟨fun w' hocc => he.entry w' ?_, fun w' hnote => ?_⟩
    · simp only [Occupied, State.setWorker, WorkerPool.workers_set] at hocc
      split at hocc
      · rename_i hw
        exact .inl (hw ▸ hbusy)
      · exact hocc
    · simp only [State.setWorker, WorkerPool.workers_set] at hnote ⊢
      split at hnote
      · rename_i hw
        subst hw
        rw [if_pos rfl]
        refine ⟨(by simp [Worker.becomeIdle]), fun p work hp hw => ?_⟩
        have hreserved := (hs.reserved w').mpr (by rw [hp, ← hw]; rfl)
        rw [hbusy] at hreserved
        cases hreserved
      · rename_i hw
        rw [if_neg hw]
        exact he.last w' hnote
  | @erase reservation hthread hfree hentry =>
    obtain ⟨hidle, -⟩ := he.last w hthread
    refine ⟨fun w' hocc => ?_, fun w' hnote => ?_⟩
    · simp only [Occupied, State.setThread, State.setWorker, WorkerPool.workers_set] at hocc
      simp only [State.setThread, State.setWorker, UnorderedMap.lookup_erase_eq]
      split at hocc
      · obtain hb | hn | ⟨p, work, hp, -⟩ := hocc
        · exact absurd hb hidle
        · cases hn
        · rw [hfree] at hp
          cases hp
      · rename_i hw
        rw [if_neg hw]
        exact he.entry w' hocc
    · simp only [State.setThread, State.setWorker, WorkerPool.workers_set] at hnote ⊢
      split at hnote
      · cases hnote
      · rename_i hw
        rw [if_neg hw]
        exact he.last w' hnote

theorem poolsEffect_entered {rm : ResourceManager} {pool : WorkerPool} (h : PoolsEffect s rm pool)
    (he : Entered s.running s.pool s.holder) :
    Entered s.running pool s.holder := by
  cases h with
  | same | register => exact he
  | closePool => exact ⟨he.entry, he.last⟩
  | requestStop w => exact he.setWorker id id
  | reset => exact he.setWorker (fun hb => by cases hb) (fun hn => by cases hn)
  | startPool =>
    have hsame : ∀ w, (s.pool.start.2.workers w).state = (s.pool.workers w).state ∧
        ((s.pool.start.2.workers w).thread = .notifying →
          (s.pool.workers w).thread = .notifying) := by
      intro w
      simp only [WorkerPool.start]
      split
      · exact ⟨rfl, id⟩
      · simp only [Worker.start]
        split
        · split
          · exact ⟨rfl, id⟩
          · exact ⟨rfl, fun hn => by cases hn⟩
        · exact ⟨rfl, id⟩
    refine ⟨fun w hocc => he.entry w ?_, fun w hnote => ?_⟩
    · obtain hbusy | hnote | hdisp := hocc
      · exact .inl ((hsame w).1.symm.trans hbusy)
      · exact .inr (.inl ((hsame w).2 hnote))
      · exact .inr (.inr hdisp)
    · obtain ⟨hbusy, hother⟩ := he.last w ((hsame w).2 hnote)
      exact ⟨fun hb => hbusy ((hsame w).1.symm.trans hb), hother⟩

theorem step_entered {a : Action} (h : step s a = some u) (hi : Inv s)
    (hfree : entryFree s a = true) (he : Entered s.running s.pool s.holder) :
    Entered u.running u.pool u.holder := by
  cases a with
  | call a =>
    have hframe := callFrame h
    rw [hframe.running, hframe.pool]
    exact he.rehold (fun p work hp => hframe.holder _ hp)
  | loop a =>
    refine loopEffect_entered (loopEffect h hi.unfailing) ?_ he
    intro p handler token hholder
    cases a with
    | tryMark executionId => simpa [entryFree, hholder] using hfree
    | _ => simp [step, loopStep, hholder] at h
  | thread w a => exact threadEffect_entered (threadEffect h hi.unfailing) hi.slots he
  | lifecycle a =>
    have hlife := lifecycleEffect h hi.stage
    rw [hlife.running, hlife.holder]
    exact poolsEffect_entered hlife.pools he
  | wake waiter =>
    obtain rfl := step_wake h
    exact he

/-! ## What Drain has found -/

theorem LoopEffect.drains (h : LoopEffect s evs u) :
    u.drains = s.drains ∧ u.control = s.control := by
  cases h <;> exact ⟨rfl, rfl⟩

theorem ThreadEffect.drains {w : WorkerID} (h : ThreadEffect s w evs u) :
    u.drains = s.drains ∧ u.control = s.control := by
  cases h <;> exact ⟨rfl, rfl⟩

theorem DrainReturned.not_same (h : DrainReturned s u) (hd : u.drains = s.drains)
    (hc : u.control = s.control) : False := by
  obtain ⟨k, hk, hk'⟩ | ⟨hk, hk'⟩ := h
  · exact hk (hd ▸ hk')
  · exact hk (hc ▸ hk')

/-- A `Drain` that returns OK has seen an empty queue and an empty `running_`. -/
theorem drained_of_returned {a : Action} (h : step s a = some u) (hi : Inv s)
    (hret : DrainReturned s u) :
    s.holder = none ∧ s.drained = true ∧ u.taskManager = s.taskManager := by
  cases a with
  | call a =>
    have hcontrol := (callFrame h).control
    have hmove := callMove h
    cases hmove with
    | drained _ hfree hdrained => exact ⟨hfree, hdrained, rfl⟩
    | drainRefused status hno hnew =>
      obtain ⟨k', hk, hk'⟩ | ⟨hc, hc'⟩ := hret
      · simp only [UnorderedMap.lookup_insert_eq] at hk'
        split at hk'
        · simp only [Option.some.injEq] at hk'
          rw [hk'] at hno
          cases hno
        · exact absurd hk' hk
      · exact absurd hc' hc
    | drainSleeps hfree hno hawake =>
      obtain ⟨k', hk, hk'⟩ | ⟨hc, hc'⟩ := hret
      · simp only [UnorderedMap.lookup_insert_eq] at hk'
        split at hk'
        · cases hk'
        · exact absurd hk' hk
      · exact absurd hc' hc
    | refuseChecks | refuseRegister | refuseEnqueue | passChecks | register | enterEnqueue
    | markQueued | refuseMark | push
    | notFound | beginRemove | beginCancel | remove | refuseRemove | cancel | refuseCancel | notify
    | cancelled => exact (hret.not_same rfl hcontrol).elim
  | loop a =>
    have hsame := (loopEffect h hi.unfailing).drains
    exact (hret.not_same hsame.1 hsame.2).elim
  | thread w a =>
    have hsame := (threadEffect h hi.unfailing).drains
    exact (hret.not_same hsame.1 hsame.2).elim
  | lifecycle a =>
    have hmove := lifecycleMove h
    obtain ⟨k, hk, hk'⟩ | ⟨hc, hc'⟩ := hret
    · have hsame : u.drains = s.drains := by cases hmove <;> rfl
      exact absurd (hsame ▸ hk') hk
    · cases hmove with
      | drained hcontrol hfree hdrained => exact ⟨hfree, hdrained, rfl⟩
      | ignored | startBegin | startPool | startScheduler | keepScheduler | «open» =>
        exact absurd hc' hc
      | shutdownBegin | drainRefused | drainSleeps | stop | notStarted | notify | join | stopped
      | closePool | poolDown | stopWorker | skipWorker | allStopped | joinWorker | resetWorker
      | publish => cases hc'
  | wake waiter =>
    obtain rfl := step_wake h
    exact (hret.not_same rfl rfl).elim

theorem Entered.nothingLeft (he : Entered s.running s.pool s.holder) (hi : Inv s)
    (hfree : s.holder = none) (hdrained : s.drained = true) : NothingLeft s := by
  simp only [State.drained, Bool.and_eq_true, List.isEmpty_iff, decide_eq_true_eq] at hdrained
  obtain ⟨hqueue, hrunning⟩ := hdrained
  intro t record hl
  have hnot : ¬ (record.state = .scheduled ∨ record.state = .running) := by
    intro hs
    obtain ⟨w, -, hw⟩ := hi.ownership.holding_of_record hl hs
    have hbusy : (s.pool.workers w).state = .busy := by
      by_contra hidle
      have hnone := (hi.slots.wellFormed w).item?_eq_none hidle
      simp [holding, hnone, hfree, Holder.inHand] at hw
    refine he.entry w (.inl hbusy) ?_
    simp [hrunning]
  refine ⟨fun hs => ?_, fun hs => hnot (.inl hs), fun hs => hnot (.inr hs)⟩
  have hqueued := (hi.queueing.queued t).mp ⟨record, hl, hs⟩
  rw [hqueue, hfree] at hqueued
  simp [Holder.limbo] at hqueued

/-- A `Drain` that returns leaves no task queued, scheduled or running, in every run in which a
dispatch finds no entry of its worker in `running_`. -/
theorem drain_means_drained {workerIds : List WorkerID} {capacity : ResourceSet}
    {callback : Bool} {as : List Action} {a : Action}
    (h : Run.run step as (.initial workerIds capacity callback) = some s)
    (hfree : Run.Along step (fun s a => entryFree s a = true) as
      (.initial workerIds capacity callback))
    (hstep : step s a = some u) (hret : DrainReturned s u) : NothingLeft u := by
  have hrun := Run.invariant (I := fun s => Inv s ∧ Entered s.running s.pool s.holder)
    (fun s a u hs hfree hstep => ⟨step_inv hstep hs.1, step_entered hstep hs.1 hfree hs.2⟩)
    hfree h ⟨inv_initial workerIds capacity callback, entered_initial workerIds⟩
  obtain ⟨hnone, hdrained, htm⟩ := drained_of_returned hstep hrun.1 hret
  have hleft := hrun.2.nothingLeft hrun.1 hnone hdrained
  intro t record hl
  rw [State.record, htm] at hl
  exact hleft t record hl

namespace Sample

def oneTask : List Action :=
  start ++ submit 1 (spec 1) none ++ [.loop .wait] ++ schedule (.ofByte 1) ++ execute ++ callback

/-- The callback of the first task removes the only entry while the worker has the second. -/
def secondForgotten : List Action :=
  start ++ submit 1 (spec 1) none ++ submit 2 (spec 2) none ++ [.loop .wait] ++
    schedule (.ofByte 1) ++ execute ++ schedule (.ofByte 2) ++ callback

end Sample

set_option maxRecDepth 4000 in
theorem drain_means_drained_one : ∃ u,
    step (Run.stateAfter step Sample.oneTask Sample.runtime) (.call (.drainBegin 1)) = some u ∧
    u.drains.lookup 1 = some (some .OK) ∧ NothingLeft u := by
  have hrun : Run.run step Sample.oneTask Sample.runtime =
      some (Run.stateAfter step Sample.oneTask Sample.runtime) := Run.run_stateAfter (by decide)
  obtain ⟨u, hstep, hbefore, hafter⟩ : ∃ u,
      step (Run.stateAfter step Sample.oneTask Sample.runtime) (.call (.drainBegin 1)) = some u ∧
      (Run.stateAfter step Sample.oneTask Sample.runtime).drains.lookup 1 ≠ some (some .OK) ∧
      u.drains.lookup 1 = some (some .OK) := ⟨_, rfl, by decide, by decide⟩
  exact ⟨u, hstep, hafter,
    drain_means_drained hrun (by decide) hstep (.inl ⟨1, hbefore, hafter⟩)⟩

/-- `Drain` returns OK while the second task waits in the mailbox of the worker. -/
theorem drained_with_task_left : ∃ s u, Run.run step Sample.secondForgotten Sample.runtime = some s ∧
    step s (.call (.drainBegin 1)) = some u ∧ DrainReturned s u ∧
    (u.record (Sample.task 2)).map TaskRecord.state = some .scheduled ∧ ¬ NothingLeft u := by
  obtain ⟨s, u, hrun, hstep, hbefore, hafter, hstate⟩ : ∃ s u,
      Run.run step Sample.secondForgotten Sample.runtime = some s ∧
      step s (.call (.drainBegin 1)) = some u ∧ s.drains.lookup 1 ≠ some (some .OK) ∧
      u.drains.lookup 1 = some (some .OK) ∧
      (u.record (Sample.task 2)).map TaskRecord.state = some .scheduled :=
    ⟨_, _, Run.run_stateAfter (by decide), rfl, by decide, by decide, by decide⟩
  refine ⟨s, u, hrun, hstep, .inl ⟨1, hbefore, hafter⟩, hstate, fun hleft => ?_⟩
  obtain ⟨record, hl, hscheduled⟩ := Option.map_eq_some_iff.mp hstate
  exact (hleft _ record hl).2.1 hscheduled

end LocalSystem

end AgentRuntime
