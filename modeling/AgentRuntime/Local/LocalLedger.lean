import AgentRuntime.Library.Ledger
import AgentRuntime.Local.Admission
import AgentRuntime.Local.Executions

/-!
# The ledger of local resources

What a worker's pool of resources is missing is held by a `running_` entry, by
the dispatch in progress, or by an idle callback that is about to give it back.
`running_.emplace` keeps an entry that is already there, so the ledger is kept
as long as each dispatch finds the entry of the previous task gone.
-/
namespace AgentRuntime

namespace LocalSystem

/-- The resources that the run has acquired on a worker, in order. -/
def acquiredAt (w : WorkerID) (seen : List Event) : List RunningReservation :=
  seen.filterMap fun
    | .acquired w' reservation => if w' = w then some reservation else none
    | _ => none

/-- The resources that the run has given back on a worker, in order. -/
def releasedAt (w : WorkerID) (seen : List Event) : List RunningReservation :=
  seen.filterMap fun
    | .released w' reservation => if w' = w then some reservation else none
    | _ => none

/-- Acquired on a worker and not released yet. -/
def outstanding (seen : List Event) (w : WorkerID) : List RunningReservation :=
  Ledger.outstanding (acquiredAt w seen) (releasedAt w seen)

/-- Acquired by `TryScheduleOne`, and not yet put into `running_`. -/
def Holder.inDispatch (holder : Option Holder) (w : WorkerID) : List RunningReservation :=
  match holder with
  | some (.scheduling phase) =>
    match phase with
    | .fetchingHandler p | .fetchingToken p _ | .popping p _ _ | .marking p _ _
    | .undoRelease p => if p.worker = w then [⟨p.task, p.spec.resources⟩] else []
    | .fetchingSpec _ | .observing _ _ _ _ | .selecting _ _ _ | .reserving _ | .acquiring _
    | .dispatching _ _ | .undoReserve _ => []
  | _ => []

/-- Taken out of `running_` by `OnWorkerIdle`, and not yet released. -/
def inRelease : Thread → List RunningReservation
  | .releasing reservation => [reservation]
  | _ => []

/-- What a reservation holds of each name. -/
def reserves (reservation : RunningReservation) (name : String) : Int :=
  reservation.resources.amount name

/-- `running_.emplace` will find no entry of the chosen worker. -/
def entryFree (s : State) : Action → Bool
  | .loop (.tryMark _) =>
    match s.holder with
    | some (.scheduling (.marking p _ _)) => (s.running.lookup p.worker).isNone
    | _ => true
  | _ => true

/-- No task is scheduled or running, no idle callback is pending and no `TryScheduleOne` is
in progress. -/
structure Quiet (s : State) : Prop where
  tasks : ∀ t record, s.record t = some record →
    record.state ≠ .scheduled ∧ record.state ≠ .running
  callbacks : ∀ w, (s.worker w).thread.callbackPending = false
  scheduling : ∀ phase, s.holder ≠ some (.scheduling phase)

/-- The resource ledger of every worker adds up, and once everything is quiet all of it is
available. -/
structure ResourcesTracked (seen : List Event) (s : State) : Prop where
  inUse : ∀ w name, s.resourceManager.total w name - s.resourceManager.available w name =
    Ledger.held reserves (outstanding seen w) name
  recorded : ∀ w, ∀ reservation ∈ outstanding seen w,
    s.running.lookup w = some reservation ∨ reservation ∈ Holder.inDispatch s.holder w ∨
      reservation ∈ inRelease (s.worker w).thread
  quiet : Quiet s → (∀ w, s.resourceManager.available w = s.resourceManager.total w) ∧
    ∀ t rest, s.queue = t :: rest → ∃ record, s.record t = some record ∧
      ∃ w ∈ s.pool.workerIds, (s.worker w).isIdle = true ∧
        s.resourceManager.canFitAvailable w record.spec.resources = true

/-! ## The invariant -/

/-- All that is outstanding on a worker. -/
def claims (running : UnorderedMap WorkerID RunningReservation) (pool : WorkerPool)
    (holder : Option Holder) (w : WorkerID) : List RunningReservation :=
  (running.lookup w).toList ++ Holder.inDispatch holder w ++ inRelease (pool.workers w).thread

/-- The worker of a `running_` entry is at work, or about to remove the entry, or about to be
given the work. -/
def Occupied (pool : WorkerPool) (holder : Option Holder) (w : WorkerID) : Prop :=
  (pool.workers w).state = .busy ∨ (pool.workers w).thread = .notifying ∨
    ∃ p work, holder = some (.scheduling (.dispatching p work)) ∧ p.worker = w

structure Booked (seen : List Event) (rm : ResourceManager)
    (running : UnorderedMap WorkerID RunningReservation) (pool : WorkerPool)
    (holder : Option Holder) : Prop where
  tracked : ∀ w, Ledger.Tracked (rm.total w) (rm.available w) reserves (acquiredAt w seen)
    (releasedAt w seen) (claims running pool holder w)
  registered : ∀ w, claims running pool holder w ≠ [] → rm.registered w
  occupied : ∀ w, running.lookup w ≠ none → Occupied pool holder w

variable {seen evs : List Event} {rm : ResourceManager} {holder holder' : Option Holder}
  {running running' : UnorderedMap WorkerID RunningReservation} {pool pool' : WorkerPool}

theorem acquiredAt_append (w : WorkerID) (seen evs : List Event) :
    acquiredAt w (seen ++ evs) = acquiredAt w seen ++ acquiredAt w evs := List.filterMap_append
theorem releasedAt_append (w : WorkerID) (seen evs : List Event) :
    releasedAt w (seen ++ evs) = releasedAt w seen ++ releasedAt w evs := List.filterMap_append

theorem reserves_nonneg (reservation : RunningReservation) (name : String) :
    0 ≤ reserves reservation name := reservation.resources.amount_nonneg name

theorem booked_initial (workerIds : List WorkerID) :
    Booked [] ⟨∅⟩ ∅ (.new workerIds) none where
  tracked w := ⟨.nil, fun name => rfl⟩
  registered w h := absurd rfl h
  occupied w h := by simp at h

/-- Nothing is acquired or released, and what is outstanding is held by others at most. -/
theorem Booked.move (h : Booked seen rm running pool holder)
    (hclaims : ∀ w, (claims running pool holder w).Perm (claims running' pool' holder' w))
    (hocc : ∀ w, running'.lookup w ≠ none → Occupied pool' holder' w) :
    Booked seen rm running' pool' holder' where
  tracked w := (h.tracked w).perm (hclaims w)
  registered w hne := by
    refine h.registered w (fun he => hne ?_)
    have hperm := hclaims w
    rw [he] at hperm
    exact List.nil_perm.mp hperm
  occupied := hocc

/-- Another phase of the scheduler with the same acquisition in hand. -/
theorem Booked.rehold (h : Booked seen rm running pool holder)
    (hin : Holder.inDispatch holder' = Holder.inDispatch holder)
    (hdisp : ∀ p work, holder ≠ some (.scheduling (.dispatching p work))) :
    Booked seen rm running pool holder' := by
  refine h.move (fun w => ?_) (fun w hne => ?_)
  · simp only [claims, hin]
    exact .rfl
  · obtain hbusy | hnote | ⟨p, work, hp, -⟩ := h.occupied w hne
    · exact .inl hbusy
    · exact .inr (.inl hnote)
    · exact absurd hp (hdisp p work)

/-- One worker changes without giving up its place. -/
theorem Booked.setWorker (h : Booked seen rm running pool holder) {w : WorkerID} {worker : Worker}
    (hrel : inRelease worker.thread = inRelease (pool.workers w).thread)
    (hocc : (pool.workers w).state = .busy ∨ (pool.workers w).thread = .notifying →
      worker.state = .busy ∨ worker.thread = .notifying) :
    Booked seen rm running (pool.set w worker) holder := by
  refine h.move (fun w' => ?_) (fun w' hne => ?_)
  · simp only [claims, WorkerPool.workers_set]
    split
    · rename_i he
      rw [hrel, he]
    · exact .rfl
  · have hold := h.occupied w' hne
    simp only [Occupied, WorkerPool.workers_set]
    split
    · rename_i he
      subst he
      obtain hbusy | hnote | hdisp := hold
      · exact (hocc (.inl hbusy)).elim .inl (fun hn => .inr (.inl hn))
      · exact (hocc (.inr hnote)).elim .inl (fun hn => .inr (.inl hn))
      · exact .inr (.inr hdisp)
    · exact hold

/-! ## Each step keeps the ledger -/

variable {submitting : TaskSpec → TaskHandler → Prop} {tm tm' : TaskManager}
  {queue queue' : TaskQueue} {s u : State}

theorem callEffect_booked (h : CallEffect submitting tm queue holder tm' queue' holder')
    (hb : Booked seen rm running pool holder) : Booked seen rm running pool holder' := by
  cases h with
  | same | register => exact hb
  | beginEnqueue | beginRemove | beginCancel | markQueued | push | remove | cancelQueued
  | cancelRunning | refuseEnqueue | refuseCancel | «return» =>
    exact hb.rehold rfl (fun _ _ he => by cases he)

theorem loopEffect_booked (h : LoopEffect s evs u)
    (hfree : ∀ p handler token, s.holder = some (.scheduling (.marking p handler token)) →
      s.running.lookup p.worker = none)
    (hb : Booked seen s.resourceManager s.running s.pool s.holder) :
    Booked (seen ++ evs) u.resourceManager u.running u.pool u.holder := by
  have quiet : ∀ {rm running pool holder}, Booked seen rm running pool holder →
      Booked (seen ++ []) rm running pool holder := fun h => by rwa [List.append_nil]
  cases h with
  | rest => exact quiet hb
  | peek hfree _ _ => exact quiet (hb.rehold (by rw [hfree]; rfl) (by simp [hfree]))
  | giveUp hholder hphase =>
    refine quiet (hb.rehold ?_ ?_) <;> rw [hholder] <;>
      obtain ⟨_, _, _, rfl⟩ | ⟨_, _, rfl⟩ := hphase
    · rfl
    · rfl
    · simp
    · simp
  | spec hholder _ | observe _ hholder _ | choose hholder | skip hholder | select hholder _
  | handler hholder _ | token hholder | pop hholder _ =>
    exact quiet (hb.rehold (by rw [hholder]; rfl) (by simp [hholder]))
  | @reserve p hholder hstarted hidle =>
    have hidle' : (s.pool.workers p.worker).state = .idle := hidle
    have hset : Booked seen s.resourceManager s.running
        (s.pool.set p.worker { s.worker p.worker with state := .reserved }) s.holder := by
      refine hb.setWorker rfl ?_
      rintro (hbusy | hnote)
      · simp [hidle'] at hbusy
      · exact .inr hnote
    exact quiet (hset.rehold (by rw [hholder]; rfl) (by simp [hholder]))
  | @acquire p hholder hfits =>
    obtain ⟨-, htotal, hreg, havail⟩ := ResourceManager.acquire_fits hfits
    refine ⟨fun w => ?_, fun w hne => ?_, fun w hne => ?_⟩
    · have hold := hb.tracked w
      rw [hholder] at hold
      rw [acquiredAt_append, releasedAt_append]
      simp only [State.setTry, htotal]
      by_cases hw : p.worker = w
      · subst hw
        have hless : ∀ name,
            (s.resourceManager.acquire p.worker p.spec.resources).2.available p.worker name =
              s.resourceManager.available p.worker name -
                reserves ⟨p.task, p.spec.resources⟩ name := by
          intro name
          rw [havail, if_pos rfl]
          rfl
        have htake := hold.take hless
        simp only [acquiredAt, releasedAt, List.filterMap_cons, if_true, List.filterMap_nil,
          List.append_nil] at htake ⊢
        refine htake.perm ?_
        simp only [claims, Holder.inDispatch, if_true, List.append_nil, List.append_assoc,
          List.singleton_append]
        exact List.perm_middle.symm
      · have hsame : (s.resourceManager.acquire p.worker p.spec.resources).2.available w =
            s.resourceManager.available w := by
          funext name
          simp [havail, Ne.symm hw]
        rw [hsame]
        simpa [acquiredAt, releasedAt, claims, Holder.inDispatch, hw] using hold
    · simp only [State.setTry, hreg]
      by_cases hw : p.worker = w
      · exact hw ▸ (ResourceManager.canFitAvailable_iff.mp hfits).1
      · refine hb.registered w ?_
        rw [hholder]
        simpa [claims, Holder.inDispatch, State.setTry, hw] using hne
    · obtain hbusy | hnote | ⟨p', work, hp, -⟩ := hb.occupied w hne
      · exact .inl hbusy
      · exact .inr (.inl hnote)
      · simp [hholder] at hp
  | @mark p handler token record executionId hholder hrecord hqueued =>
    have hnone := hfree p handler token hholder
    have hlookup : ∀ w, (s.running.emplace p.worker ⟨p.task, p.spec.resources⟩).lookup w =
        if w = p.worker then some ⟨p.task, p.spec.resources⟩ else s.running.lookup w :=
      UnorderedMap.lookup_emplace_of_none _ hnone
    refine quiet (hb.move (fun w => ?_) (fun w hne => ?_))
    · simp only [claims, State.setTry, hlookup, hholder, Holder.inDispatch]
      by_cases hw : w = p.worker
      · subst hw
        simp [hnone]
      · simp [hw, Ne.symm hw]
    · by_cases hw : w = p.worker
      · exact .inr (.inr ⟨p, _, rfl, hw.symm⟩)
      · simp only [State.setTry, hlookup, if_neg hw] at hne
        obtain hbusy | hnote | ⟨p', work, hp, -⟩ := hb.occupied w hne
        · exact .inl hbusy
        · exact .inr (.inl hnote)
        · simp [hholder] at hp
  | @dispatch p work hholder hstarted hstopping hreserved hmailbox =>
    refine quiet (hb.move (fun w => ?_) (fun w hne => ?_))
    · simp only [claims, State.tryReturns, State.setWorker, WorkerPool.workers_set, hholder,
        Holder.inDispatch]
      split
      · rename_i he
        subst he
        exact .rfl
      · exact .rfl
    · simp only [Occupied, State.tryReturns, State.setWorker, WorkerPool.workers_set]
      split
      · exact .inl rfl
      · rename_i hw
        obtain hbusy | hnote | ⟨p', work', hp, hp'⟩ := hb.occupied w hne
        · exact .inl hbusy
        · exact .inr (.inl hnote)
        · rw [hholder] at hp
          cases hp
          exact absurd hp'.symm hw

/-- What an idle callback holds fits into what is in use, so `Release` accepts it. -/
theorem Booked.release_ok (h : Booked seen rm running pool holder) {w : WorkerID}
    {reservation : RunningReservation} (hc : reservation ∈ claims running pool holder w) :
    (rm.release w reservation.resources).1 = .OK ∧
      ∀ w' name, (rm.release w reservation.resources).2.available w' name =
        rm.available w' name + if w' = w then reserves reservation name else 0 := by
  obtain ⟨-, -, ⟨-, -, hnot⟩ | hok⟩ := rm.release_cases w reservation.resources
  · refine absurd ⟨h.registered w (List.ne_nil_of_mem hc), fun name _ => ?_⟩ hnot
    exact (h.tracked w).balanced.covers reserves_nonneg hc name
  · exact hok

theorem threadEffect_booked {w : WorkerID} (h : ThreadEffect s w evs u)
    (hb : Booked seen s.resourceManager s.running s.pool s.holder) :
    Booked (seen ++ evs) u.resourceManager u.running u.pool u.holder := by
  have quiet : ∀ {evs rm running pool holder}, Booked seen rm running pool holder →
      (∀ w, acquiredAt w evs = [] ∧ releasedAt w evs = []) →
      Booked (seen ++ evs) rm running pool holder := by
    intro evs rm running pool holder h hevs
    refine ⟨fun w => ?_, h.registered, h.occupied⟩
    rw [acquiredAt_append, releasedAt_append, (hevs w).1, (hevs w).2, List.append_nil,
      List.append_nil]
    exact h.tracked w
  have nothing : ∀ w, acquiredAt w [] = [] ∧ releasedAt w [] = [] := fun _ => ⟨rfl, rfl⟩
  -- the thread goes on without touching `running_`
  have goes : ∀ {before after : Thread}, (s.worker w).thread = before →
      inRelease before = [] → inRelease after = [] → before ≠ .notifying →
      Booked seen s.resourceManager s.running (s.pool.set w ((s.worker w).setThread after))
        s.holder := by
    intro before after hbefore hb' ha' hne
    refine hb.setWorker ?_ ?_
    · rw [show (s.pool.workers w).thread = before from hbefore, hb']
      exact ha'
    · rintro (hbusy | hnote)
      · exact .inl hbusy
      · exact absurd (hbefore.symm.trans hnote) hne
  cases h with
  | take hthread hmailbox =>
    refine quiet (hb.setWorker ?_ ?_) nothing
    · rw [show (s.pool.workers w).thread = _ from hthread]
      rfl
    · rintro (hbusy | hnote)
      · exact .inl hbusy
      · exact absurd (hthread.symm.trans hnote) (by simp)
  | leave hthread hmailbox hstopping =>
    refine quiet (hb.setWorker ?_ ?_) nothing
    · rw [show (s.pool.workers w).thread = _ from hthread]
      rfl
    · rintro (hbusy | hnote)
      · exact .inl hbusy
      · exact absurd (hthread.symm.trans hnote) (by simp)
  | markRunning hthread _ _ | leaveHandler _ hthread | reported hthread | wake _ hthread
  | announce hthread =>
    exact quiet (goes hthread rfl rfl (by simp)) nothing
  | invoke hthread => exact quiet (goes hthread rfl rfl (by simp)) (fun _ => ⟨rfl, rfl⟩)
  | complete thread hthread _ _ hnext =>
    refine quiet (goes hthread rfl ?_ (by simp)) (fun _ => ⟨rfl, rfl⟩)
    obtain rfl | ⟨completion, -, rfl⟩ := hnext <;> rfl
  | becomeIdle hthread =>
    refine quiet (hb.setWorker ?_ (fun _ => .inr rfl)) nothing
    rw [show (s.pool.workers w).thread = _ from hthread]
    rfl
  | @erase reservation hthread hfree hentry =>
    refine quiet (hb.move (fun w' => ?_) (fun w' hne => ?_)) nothing
    · simp only [claims, State.setThread, State.setWorker, WorkerPool.workers_set,
        UnorderedMap.lookup_erase_eq]
      by_cases hw : w' = w
      · subst hw
        rw [show (s.pool.workers w').thread = _ from hthread]
        simp [hentry, hfree, Holder.inDispatch, inRelease, Worker.setThread]
      · simp [hw]
    · simp only [Occupied, State.setThread, State.setWorker, WorkerPool.workers_set,
        UnorderedMap.lookup_erase_eq] at hne ⊢
      by_cases hw : w' = w
      · simp [hw] at hne
      · rw [if_neg hw] at hne ⊢
        exact hb.occupied w' hne
  | eraseNone hthread hfree hentry =>
    refine quiet (hb.move (fun w' => ?_) (fun w' hne => ?_)) nothing
    · simp only [claims, State.setThread, State.setWorker, WorkerPool.workers_set]
      by_cases hw : w' = w
      · subst hw
        rw [show (s.pool.workers w').thread = _ from hthread]
        simp [inRelease, Worker.setThread]
      · simp [hw]
    · have hw : w' ≠ w := by
        rintro rfl
        exact hne hentry
      simp only [Occupied, State.setThread, State.setWorker, WorkerPool.workers_set, if_neg hw]
      exact hb.occupied w' hne
  | @release reservation hthread =>
    have hthread' : (s.pool.workers w).thread = .releasing reservation := hthread
    have hmem : reservation ∈ claims s.running s.pool s.holder w := by
      simp [claims, hthread', inRelease]
    obtain ⟨hok, havail⟩ := hb.release_ok hmem
    obtain ⟨htotal, hreg, -⟩ := s.resourceManager.release_cases w reservation.resources
    refine ⟨fun w' => ?_, fun w' hne => ?_, fun w' hne => ?_⟩
    · have hold := hb.tracked w'
      rw [acquiredAt_append, releasedAt_append]
      simp only [State.setThread, State.setWorker, htotal, hok, Status.ok_OK, if_true]
      by_cases hw : w' = w
      · subst hw
        have hperm : (claims s.running s.pool s.holder w').Perm (reservation :: claims s.running
            (s.pool.set w' ((s.pool.workers w').setThread .waking)) s.holder w') := by
          simp only [claims, hthread', inRelease, WorkerPool.workers_set, if_true,
            Worker.setThread, List.append_nil]
          exact List.perm_append_singleton reservation _
        have hmore : ∀ name,
            (s.resourceManager.release w' reservation.resources).2.available w' name =
              s.resourceManager.available w' name + reserves reservation name := by
          intro name
          rw [havail, if_pos rfl]
        have hback := (hold.perm hperm).giveBack hmore
        simpa [acquiredAt, releasedAt, State.worker] using hback
      · have hsame : (s.resourceManager.release w reservation.resources).2.available w' =
            s.resourceManager.available w' := by
          funext name
          simp [havail, hw]
        rw [hsame]
        simpa [acquiredAt, releasedAt, claims, hw, Ne.symm hw] using hold
    · simp only [State.setThread, State.setWorker, hreg]
      by_cases hw : w' = w
      · exact hw ▸ hb.registered w (List.ne_nil_of_mem hmem)
      · refine hb.registered w' ?_
        simpa [claims, State.setThread, State.setWorker, hw] using hne
    · simp only [Occupied, State.setThread, State.setWorker, WorkerPool.workers_set]
      have hold := hb.occupied w' hne
      split
      · rename_i he
        subst he
        obtain hbusy | hnote | hdisp := hold
        · exact .inl hbusy
        · rw [hthread'] at hnote
          cases hnote
        · exact .inr (.inr hdisp)
      · exact hold

/-- New pools are full, and nothing is outstanding on them yet. -/
theorem Booked.registerAll (h : Booked seen rm running pool holder) (capacity : ResourceSet)
    (ids : List WorkerID) : Booked seen (registerAll capacity ids rm).2 running pool holder := by
  refine ⟨fun w => ?_, fun w hne => ?_, h.occupied⟩
  · have hold := h.tracked w
    obtain he | ⟨hnone, he⟩ := lookup_registerAll capacity ids rm w
    · have htotal : (LocalSystem.registerAll capacity ids rm).2.total w = rm.total w := by
        funext name
        simp only [ResourceManager.total, he]
      have havail : (LocalSystem.registerAll capacity ids rm).2.available w = rm.available w := by
        funext name
        simp only [ResourceManager.available, he]
      rw [htotal, havail]
      exact hold
    · have hempty : claims running pool holder w = [] := by
        by_contra hne
        have hreg := h.registered w hne
        simp [ResourceManager.registered, hnone] at hreg
      refine ⟨hold.accounted, ?_⟩
      rw [hempty]
      refine .full (fun name => ?_) (fun _ hc => by cases hc)
      simp only [ResourceManager.total, ResourceManager.available, he]
      rfl
  · have hreg := h.registered w hne
    obtain he | ⟨hnone, -⟩ := lookup_registerAll capacity ids rm w
    · simpa only [ResourceManager.registered, he] using hreg
    · simp [ResourceManager.registered, hnone] at hreg

theorem poolsEffect_booked {rm : ResourceManager} {pool : WorkerPool} (h : PoolsEffect s rm pool)
    (hs : Slots s.pool s.holder)
    (hb : Booked seen s.resourceManager s.running s.pool s.holder) :
    Booked seen rm s.running pool s.holder := by
  cases h with
  | same => exact hb
  | register => exact hb.registerAll _ _
  | closePool => exact ⟨hb.tracked, hb.registered, hb.occupied⟩
  | requestStop w => exact hb.setWorker rfl id
  | @reset w hexited hloop =>
    have hexited' : (s.pool.workers w).thread = .exited := hexited
    refine hb.setWorker ?_ ?_
    · rw [hexited']
      rfl
    · have hwf : (s.pool.workers w).WellFormed := hs.wellFormed w
      rintro (hbusy | hnote)
      · -- a busy worker has work to do, so its thread has not left
        have hheld := hwf.held hbusy
        rw [hexited', (hwf.left hexited').2] at hheld
        cases hheld
      · rw [hexited'] at hnote
        cases hnote
  | startPool =>
    have hsame : ∀ w, (s.pool.start.2.workers w).state = (s.pool.workers w).state ∧
        ((s.pool.start.2.workers w).thread = (s.pool.workers w).thread ∨
          (s.pool.start.2.workers w).thread = .waiting ∧ (s.pool.workers w).thread = .off) := by
      intro w
      simp only [WorkerPool.start]
      split
      · exact ⟨rfl, .inl rfl⟩
      · simp only
        split
        · cases hw : (s.pool.workers w).started with
          | true => simp [Worker.start, hw]
          | false => simp [Worker.start, hw, ((hs.wellFormed w).down hw).2]
        · exact ⟨rfl, .inl rfl⟩
    refine hb.move (fun w => ?_) (fun w hne => ?_)
    · simp only [claims]
      obtain he | ⟨he, he'⟩ := (hsame w).2
      · rw [he]
      · rw [he, he']
        exact .rfl
    · obtain hbusy | hnote | hdisp := hb.occupied w hne
      · exact .inl ((hsame w).1.trans hbusy)
      · obtain he | ⟨-, he⟩ := (hsame w).2
        · exact .inr (.inl (he.trans hnote))
        · rw [he] at hnote
          cases hnote
      · exact .inr (.inr hdisp)

theorem step_booked {a : Action} (h : step s a = some u) (hi : Inv s)
    (hfree : entryFree s a = true)
    (hb : Booked seen s.resourceManager s.running s.pool s.holder) :
    Booked (seen ++ events s a) u.resourceManager u.running u.pool u.holder := by
  cases a with
  | call a =>
    have hframe := callFrame h
    rw [hframe.resourceManager, hframe.running, hframe.pool,
      show events s (.call a) = [] from rfl, List.append_nil]
    exact callEffect_booked (callEffect h hi.unfailing) hb
  | loop a =>
    refine loopEffect_booked (loopEffect h hi.unfailing) ?_ hb
    intro p handler token hholder
    -- from this phase no other step is possible
    cases a with
    | tryMark executionId => simpa [entryFree, hholder] using hfree
    | _ => simp [step, loopStep, hholder] at h
  | thread w a => exact threadEffect_booked (threadEffect h hi.unfailing) hb
  | lifecycle a =>
    have he := lifecycleEffect h hi.stage
    rw [he.running, he.holder, show events s (.lifecycle a) = [] from rfl, List.append_nil]
    exact poolsEffect_booked he.pools hi.slots hb
  | wake waiter =>
    obtain rfl := step_wake h
    rw [show events s (.wake waiter) = [] from rfl, List.append_nil]
    exact hb

/-! ## The result -/

theorem Quiet.item?_eq_none (h : Quiet s) (hi : Inv s) (w : WorkerID) :
    (s.pool.workers w).item? = none := by
  cases hitem : (s.pool.workers w).item? with
  | none => rfl
  | some item =>
    obtain ⟨work, x⟩ := item
    have hhold : holding s.pool s.holder w = some (work.spec.id, x) := by
      simp only [holding, hitem]
    obtain ⟨record, hl, hx, -⟩ := hi.ownership.record_of_holding hhold
    obtain ⟨hscheduled, hrunning⟩ := h.tasks _ record hl
    rw [hx] at hscheduled hrunning
    simp only [Worker.item?] at hitem
    split at hitem
    · cases hitem
      exact absurd rfl hscheduled
    · cases ht : (s.pool.workers w).thread <;> rw [ht] at hitem <;> cases hitem
      · exact absurd rfl hscheduled
      · exact absurd rfl hrunning
      · exact absurd rfl hrunning
      · exact absurd rfl hrunning

/-- Every worker is idle once everything is quiet. -/
theorem Quiet.idle (h : Quiet s) (hi : Inv s) (w : WorkerID) : (s.worker w).state = .idle := by
  have hwf : (s.worker w).WellFormed := hi.slots.wellFormed w
  have hitem : (s.worker w).item? = none := h.item?_eq_none hi w
  have hpending := h.callbacks w
  cases hstate : (s.worker w).state with
  | idle => rfl
  | reserved =>
    have hreserved := (hi.slots.reserved w).mp hstate
    exfalso
    cases hh : s.holder with
    | none =>
      rw [hh] at hreserved
      cases hreserved
    | some holder =>
      cases holder with
      | scheduling phase => exact h.scheduling phase hh
      | _ =>
        rw [hh] at hreserved
        cases hreserved
  | busy =>
    exfalso
    have hheld := hwf.held hstate
    cases hm : (s.worker w).mailbox with
    | some work => simp [Worker.item?, hm] at hitem
    | none =>
      simp only [Worker.item?, hm] at hitem
      have hengaged : (s.worker w).thread.engaged = true := by simpa [hm] using hheld
      obtain hsome | hcallback := Thread.engaged_cases hengaged
      · simp [hitem] at hsome
      · rw [hpending] at hcallback
        cases hcallback

theorem Booked.claims_eq_nil (hb : Booked seen s.resourceManager s.running s.pool s.holder)
    (hi : Inv s) (h : Quiet s) (w : WorkerID) : claims s.running s.pool s.holder w = [] := by
  have hrunning : s.running.lookup w = none := by
    by_contra hne
    obtain hbusy | hnote | ⟨p, work, hp, -⟩ := hb.occupied w hne
    · have hidle := h.idle hi w
      rw [State.worker, hbusy] at hidle
      cases hidle
    · have hpending := h.callbacks w
      rw [State.worker, hnote] at hpending
      cases hpending
    · exact h.scheduling _ hp
  have hdispatch : Holder.inDispatch s.holder w = [] := by
    cases hh : s.holder with
    | none => rfl
    | some holder =>
      cases holder with
      | scheduling phase => exact absurd hh (h.scheduling phase)
      | _ => rfl
  have hrelease : inRelease (s.pool.workers w).thread = [] := by
    have hpending := h.callbacks w
    rw [State.worker] at hpending
    cases ht : (s.pool.workers w).thread <;> rw [ht] at hpending <;> first | rfl | cases hpending
  simp [claims, hrunning, hdispatch, hrelease]

theorem Booked.resourcesTracked (hb : Booked seen s.resourceManager s.running s.pool s.holder)
    (hi : Inv s) (ha : Admitted s) : ResourcesTracked seen s where
  inUse w name := (hb.tracked w).held_outstanding name
  recorded w reservation hmem := by
    have hclaim := (hb.tracked w).outstanding_perm.mem_iff.mp hmem
    simp only [claims, List.mem_append, Option.mem_toList] at hclaim
    obtain (hrun | hdisp) | hrel := hclaim
    · exact .inl hrun
    · exact .inr (.inl hdisp)
    · exact .inr (.inr hrel)
  quiet hq := by
    have hfull : ∀ w, s.resourceManager.available w = s.resourceManager.total w := by
      intro w
      have hbal := (hb.tracked w).balanced
      rw [hb.claims_eq_nil hi hq w] at hbal
      funext name
      exact hbal.available_eq name
    refine ⟨hfull, fun t rest hqueue => ?_⟩
    have hhead : ∃ record, s.record t = some record ∧ record.state = .queued :=
      (hi.queueing.queued t).mpr (.inl (by simp [hqueue]))
    obtain ⟨record, hl, -⟩ := hhead
    obtain ⟨w, hmem, hfits⟩ := ha.records t record hl
    obtain ⟨hreg, hle⟩ := ResourceManager.canFitTotal_iff.mp hfits
    refine ⟨record, hl, w, hmem, ?_, ?_⟩
    · simp [Worker.isIdle, hq.idle hi w]
    · exact ResourceManager.canFitAvailable_iff.mpr ⟨hreg, hfull w ▸ hle⟩

/-- What is booked out of a worker's resources is what its execution was given, and all of it comes
back, in every run in which a dispatch finds no entry of its worker in `running_`. -/
theorem resources_tracked {workerIds : List WorkerID} {capacity : ResourceSet} {callback : Bool}
    {as : List Action} (h : Run.run step as (.initial workerIds capacity callback) = some s)
    (hfree : Run.Along step (fun s a => entryFree s a = true) as
      (.initial workerIds capacity callback)) :
    ResourcesTracked (observedIn as (.initial workerIds capacity callback)) s := by
  have hrun := Run.invariant_observed (I := fun seen s => (Inv s ∧ Admitted s) ∧
      Booked seen s.resourceManager s.running s.pool s.holder)
    (fun seen s a u hs hfree hstep => ⟨⟨step_inv hstep hs.1.1, step_admitted hstep hs.1.1 hs.1.2⟩,
      step_booked hstep hs.1.1 hfree hs.2⟩)
    hfree h ⟨⟨inv_initial workerIds capacity callback,
      admitted_initial workerIds capacity callback⟩, booked_initial workerIds⟩
  exact hrun.2.resourcesTracked hrun.1.1 hrun.1.2

namespace Sample

/-- The idle callback of the first task comes before the second task is scheduled. -/
def inTurn : List Action :=
  start ++ submit 1 (spec 1) none ++ submit 2 (spec 2) none ++ [.loop .wait] ++
    schedule (.ofByte 1) ++ execute ++ callback ++ schedule (.ofByte 2) ++ execute ++ callback

/-- The worker is idle again, and given the second task, before the callback of the first. -/
def overtaken : List Action :=
  start ++ submit 1 (spec 1) none ++ submit 2 (spec 2) none ++ [.loop .wait] ++
    schedule (.ofByte 1) ++ execute ++ schedule (.ofByte 2) ++ callback ++ execute ++
    [.thread workerId .idleErase, .thread workerId .idleWake, .thread workerId .idleNotify]

end Sample

set_option maxRecDepth 4000 in
theorem resources_tracked_in_turn :
    ResourcesTracked (observedIn Sample.inTurn Sample.runtime)
      (Run.stateAfter step Sample.inTurn Sample.runtime) := by
  apply resources_tracked (Run.run_stateAfter ?_)
  · decide
  · decide

theorem quiet_overtaken : Quiet (Run.stateAfter step Sample.overtaken Sample.runtime) where
  tasks t record hl := by
    have hmem : t ∈ (Run.stateAfter step Sample.overtaken
        Sample.runtime).taskManager.records.keys :=
      Finmap.mem_keys.mpr (Finmap.mem_iff.mpr ⟨record, hl⟩)
    have hall : ∀ t ∈ (Run.stateAfter step Sample.overtaken
        Sample.runtime).taskManager.records.keys,
        ((Run.stateAfter step Sample.overtaken Sample.runtime).record t).map
          TaskRecord.state = some .succeeded := by decide
    have hstate := hall t hmem
    rw [hl] at hstate
    simp only [Option.map_some, Option.some.injEq] at hstate
    simp [hstate]
  callbacks w := by
    have hi : Inv (Run.stateAfter step Sample.overtaken Sample.runtime) :=
      inv_run (Run.run_stateAfter (by decide))
    by_cases hw : w = Sample.workerId
    · subst hw
      decide
    · -- there is no other worker
      have hdown : ((Run.stateAfter step Sample.overtaken Sample.runtime).worker w).started =
          false := by
        by_contra hup
        have hmem := hi.slots.listed w (by simpa [State.worker] using hup)
        have hids : (Run.stateAfter step Sample.overtaken Sample.runtime).pool.workerIds =
            [Sample.workerId] := by decide
        rw [hids, List.mem_singleton] at hmem
        exact hw hmem
      have hoff := ((hi.slots.wellFormed w).down hdown).2
      rw [State.worker, hoff]
      rfl
  scheduling phase := by
    have hfree : (Run.stateAfter step Sample.overtaken Sample.runtime).holder.isNone = true := by
      decide
    simp [Option.isNone_iff_eq_none.mp hfree]

/-- `running_` keeps the entry of the first task, so the resources of the second are lost. -/
theorem overtaken_loses_resources : ∃ s,
    Run.run step Sample.overtaken Sample.runtime = some s ∧ Quiet s ∧
    s.resourceManager.available Sample.workerId "cpu" = 10000 ∧
    s.resourceManager.total Sample.workerId "cpu" = 20000 ∧
    ¬ ResourcesTracked (observedIn Sample.overtaken Sample.runtime) s := by
  have havail : (Run.stateAfter step Sample.overtaken Sample.runtime).resourceManager.available
      Sample.workerId "cpu" = 10000 := by decide
  have htotal : (Run.stateAfter step Sample.overtaken Sample.runtime).resourceManager.total
      Sample.workerId "cpu" = 20000 := by decide
  refine ⟨_, Run.run_stateAfter ?_, quiet_overtaken, havail, htotal, ?_⟩
  · decide
  · intro h
    have hfull := (h.quiet quiet_overtaken).1 Sample.workerId
    rw [hfull, htotal] at havail
    cases havail

end LocalSystem

end AgentRuntime
