import AgentRuntime.Local.Sections

/-!
# Local cancellation is atomic

`Scheduler::Cancel` reads a snapshot, takes the task out of the queue and then
cancels the record, in three sections with no rollback, and the worker threads
move the same task meanwhile. Since all of it happens with `mu_` held, the call
has the effect of one operation: all of its sections together cancel a queued
task, set the token of a running one, or change nothing.
-/
namespace AgentRuntime

namespace LocalSystem

namespace Section

/-- `TaskQueue::Remove`: the other entries keep their order. -/
def Dequeues (t : TaskID) (x : Section) : Prop :=
  ∃ front back, x.before.queue = front ++ t :: back ∧ t ∉ front ++ back ∧
    x.after = { x.before with holder := x.after.holder, queue := front ++ back }

/-- `TaskManager::Cancel` of a queued task. -/
def Cancels (t : TaskID) (x : Section) : Prop :=
  ∃ record, x.before.record t = some record ∧ record.state = .queued ∧
    x.after = { x.before with
      holder := x.after.holder
      taskManager := x.before.taskManager.store t (TaskManager.cancelledRecord record) }

/-- `TaskManager::Cancel` of a running task. -/
def SetsToken (t : TaskID) (x : Section) : Prop :=
  ∃ record, x.before.record t = some record ∧ record.state = .running ∧
    x.after = { x.before with
      holder := x.after.holder
      taskManager := x.before.taskManager.store t { record with cancelRequested := true } }

end Section

/-- The sections of a call that cancels a queued task. -/
def CancelsQueued (k : Nat) (t : TaskID) (own : List Section) : Prop :=
  ∃ snapshot remove cancel finish, own = [snapshot, remove, cancel, finish] ∧
    snapshot.action = .call (.cancelBegin k t) ∧ snapshot.IsQuiet ∧ remove.Dequeues t ∧
    cancel.Cancels t ∧ finish.Wakes

/-- The sections of a call that sets the token of a running task. -/
def CancelsRunning (k : Nat) (t : TaskID) (own : List Section) : Prop :=
  ∃ snapshot cancel finish, own = [snapshot, cancel, finish] ∧
    snapshot.action = .call (.cancelBegin k t) ∧ snapshot.IsQuiet ∧ cancel.SetsToken t ∧
    finish.IsQuiet

/-- What a call has done that returned the status. -/
inductive CancelResult (k : Nat) : Status → List Section → Prop where
  | refused {status own} (hno : status.ok = false) (hquiet : ∀ x ∈ own, x.IsQuiet) :
      CancelResult k status own
  | queued {t own} (h : CancelsQueued k t own) : CancelResult k .OK own
  | running {t own} (h : CancelsRunning k t own) : CancelResult k .OK own

/-- How far a call is, and the sections that it has taken so far. -/
inductive Cancelling (k : Nat) (s : State) : List Section → Prop where
  | outside (hnew : s.cancels.lookup k = none) (hout : Holder.cancel? s.holder ≠ some k) :
      Cancelling k s []
  | removing {t snapshot} (hnew : s.cancels.lookup k = none)
      (hholder : s.holder = some (.cancelRemove k t))
      (hbegun : snapshot.action = .call (.cancelBegin k t)) (hsnapshot : snapshot.IsQuiet) :
      Cancelling k s [snapshot]
  | cancelling {t snapshot} (hnew : s.cancels.lookup k = none)
      (hholder : s.holder = some (.cancelTask k t false))
      (hbegun : snapshot.action = .call (.cancelBegin k t)) (hsnapshot : snapshot.IsQuiet) :
      Cancelling k s [snapshot]
  | removed {t snapshot remove} (hnew : s.cancels.lookup k = none)
      (hholder : s.holder = some (.cancelTask k t true))
      (hbegun : snapshot.action = .call (.cancelBegin k t)) (hsnapshot : snapshot.IsQuiet)
      (hremove : remove.Dequeues t) : Cancelling k s [snapshot, remove]
  | cancelled {t snapshot remove cancel completion} (hnew : s.cancels.lookup k = none)
      (hholder : s.holder = some (.cancelReport k true completion))
      (hbegun : snapshot.action = .call (.cancelBegin k t)) (hsnapshot : snapshot.IsQuiet)
      (hremove : remove.Dequeues t) (hcancel : cancel.Cancels t) :
      Cancelling k s [snapshot, remove, cancel]
  | signalled {t snapshot cancel completion} (hnew : s.cancels.lookup k = none)
      (hholder : s.holder = some (.cancelReport k false completion))
      (hbegun : snapshot.action = .call (.cancelBegin k t)) (hsnapshot : snapshot.IsQuiet)
      (hcancel : cancel.SetsToken t) : Cancelling k s [snapshot, cancel]
  | returned {status own} (hreturned : s.cancels.lookup k = some status)
      (hout : Holder.cancel? s.holder ≠ some k) (hresult : CancelResult k status own) :
      Cancelling k s own

variable {s u : State} {evs : List Event} {k : Nat}

/-! ## The steps of other threads -/

theorem callStep_aside {a : CallAction} (h : callStep s a = some u)
    (hcaller : caller s (.call a) ≠ some (.cancel k)) : Aside k s u := by
  cases callMove h with
  | refuseChecks | passChecks | refuseRegister | register | refuseEnqueue | drainRefused
  | drained | drainSleeps => exact aside_of_holder rfl rfl
  | enterEnqueue _ hfree =>
    exact aside_of_not rfl (by simp [hfree, Holder.cancel?]) (by simp [Holder.cancel?])
  | refuseMark _ _ hholder | markQueued _ hholder | push hholder =>
    exact aside_of_not rfl (by simp [hholder, Holder.cancel?])
      (by simp [enqueuePush, State.submitReturns, Holder.cancel?])
  | notFound status hfree =>
    simp only [caller, ne_eq, Option.some.injEq, Call.cancel.injEq] at hcaller
    exact ⟨by simp [Ne.symm hcaller], fun _ => rfl⟩
  | beginRemove hfree | beginCancel hfree =>
    simp only [caller, ne_eq, Option.some.injEq, Call.cancel.injEq] at hcaller
    exact aside_of_not rfl (by simp [hfree, Holder.cancel?])
      (by simpa [Holder.cancel?] using hcaller)
  | remove hholder | cancel _ _ hholder =>
    simp only [caller, hholder, Holder.cancel?, Option.map_some, ne_eq, Option.some.injEq,
      Call.cancel.injEq] at hcaller
    exact aside_of_not rfl (by simpa [hholder, Holder.cancel?] using hcaller)
      (by simpa [Holder.cancel?] using hcaller)
  | refuseRemove _ hholder | refuseCancel _ _ hholder | notify hholder | cancelled hholder =>
    simp only [caller, hholder, Holder.cancel?, Option.map_some, ne_eq, Option.some.injEq,
      Call.cancel.injEq] at hcaller
    exact aside_of_not (by simp [State.cancelReturns, Ne.symm hcaller])
      (by simpa [hholder, Holder.cancel?] using hcaller)
      (by simp [State.cancelReturns, Holder.cancel?])

theorem step_aside {a : Action} (h : step s a = some u)
    (hcaller : caller s a ≠ some (.cancel k)) : Aside k s u := by
  cases a with
  | call a => exact callStep_aside h hcaller
  | loop | thread | lifecycle | wake => exact (step_callsKept h (by simp)).aside

theorem Cancelling.aside {own : List Section} (h : Cancelling k s own) (ha : Aside k s u) :
    Cancelling k u own := by
  have stays : ∀ {holder : Option Holder}, s.holder = holder → Holder.cancel? holder = some k →
      u.holder = holder := fun hholder hk => (ha.holder (.inl (hholder ▸ hk))).trans hholder
  have outside : Holder.cancel? s.holder ≠ some k → Holder.cancel? u.holder ≠ some k :=
    fun hout hu => hout (ha.holder (.inr hu) ▸ hu)
  cases h with
  | outside hnew hout => exact .outside (ha.cancels.trans hnew) (outside hout)
  | removing hnew hholder hbegun hsnapshot =>
    exact .removing (ha.cancels.trans hnew) (stays hholder rfl) hbegun hsnapshot
  | cancelling hnew hholder hbegun hsnapshot =>
    exact .cancelling (ha.cancels.trans hnew) (stays hholder rfl) hbegun hsnapshot
  | removed hnew hholder hbegun hsnapshot hremove =>
    exact .removed (ha.cancels.trans hnew) (stays hholder rfl) hbegun hsnapshot hremove
  | cancelled hnew hholder hbegun hsnapshot hremove hcancel =>
    exact .cancelled (ha.cancels.trans hnew) (stays hholder rfl) hbegun hsnapshot hremove hcancel
  | signalled hnew hholder hbegun hsnapshot hcancel =>
    exact .signalled (ha.cancels.trans hnew) (stays hholder rfl) hbegun hsnapshot hcancel
  | returned hreturned hout hresult =>
    exact .returned (ha.cancels.trans hreturned) (outside hout) hresult

/-! ## The sections of the call -/

theorem cancelBegin_cancelling {t : TaskID} {own : List Section} (hc : Cancelling k s own)
    (h : callStep s (.cancelBegin k t) = some u) :
    Cancelling k u (own ++ [⟨s, .call (.cancelBegin k t), u⟩]) := by
  simp only [callStep] at h
  split at h
  · rename_i hfree hnew
    cases h
    cases hc with
    | outside _ _ =>
      simp only [cancelBegin, List.nil_append]
      split
      · rename_i status hmissing
        have hno : status.ok = false := by
          simp only [TaskManager.getSnapshot, TaskManager.get] at hmissing
          split at hmissing
          · cases hmissing
            rfl
          · cases hmissing
        refine .returned (Finmap.lookup_insert _) (by simp [hfree, Holder.cancel?])
          (.refused hno (fun x hx => ?_))
        obtain rfl := List.mem_singleton.mp hx
        rfl
      · split
        · exact .removing hnew rfl rfl rfl
        · exact .cancelling hnew rfl rfl rfl
    | removing _ hholder | cancelling _ hholder | removed _ hholder | cancelled _ hholder
    | signalled _ hholder =>
      rw [hfree] at hholder
      cases hholder
    | returned hreturned =>
      rw [hnew] at hreturned
      cases hreturned
  · cases h

/-- The queue entry of a task in its snapshot cannot have gone. -/
theorem remove_ok (hi : Inv s) {t : TaskID} (hholder : s.holder = some (.cancelRemove k t)) :
    (s.queue.remove t).1.ok = true := by
  have hmem := hi.queueing.removing k t hholder
  simp [TaskQueue.remove, hmem]

theorem cancelRemove_cancelling (hi : Inv s) {own : List Section} (hc : Cancelling k s own)
    {t : TaskID} (hholder : s.holder = some (.cancelRemove k t)) :
    Cancelling k (cancelRemove s k t) (own ++ [⟨s, .call .cancelRemove, cancelRemove s k t⟩]) := by
  have hmem := hi.queueing.removing k t hholder
  obtain ⟨front, back, hqueue⟩ := List.append_of_mem hmem
  have hnodup := hi.queueing.nodup
  rw [hqueue, List.nodup_middle] at hnodup
  have hfresh := (List.nodup_cons.mp hnodup).1
  have herase : s.queue.erase t = front ++ back := by
    rw [hqueue, List.erase_append_right _ (fun hf => hfresh (List.mem_append_left _ hf)),
      List.erase_cons_head]
  have hstep : cancelRemove s k t =
      { s with queue := front ++ back, holder := some (.cancelTask k t true) } := by
    simp [cancelRemove, TaskQueue.remove, hmem, herase]
  rw [hstep]
  cases hc with
  | removing hnew hholder' hbegun hsnapshot =>
    rw [hholder] at hholder'
    cases hholder'
    exact .removed hnew rfl hbegun hsnapshot ⟨front, back, hqueue, hfresh, rfl⟩
  | cancelling _ hholder' | removed _ hholder' | cancelled _ hholder' | signalled _ hholder' =>
    rw [hholder] at hholder'
    cases hholder'
  | outside _ hout | returned _ hout =>
    rw [hholder] at hout
    exact absurd rfl hout

/-- The record of a task that has just been taken out of the queue is still queued. -/
theorem cancelTask_queued (hi : Inv s) {t : TaskID}
    (hholder : s.holder = some (.cancelTask k t true)) : ∃ record, s.record t = some record ∧
      record.state = .queued ∧ cancelTask s k t true = { s with
        taskManager := s.taskManager.store t (TaskManager.cancelledRecord record)
        holder := some (.cancelReport k true
          (s.taskManager.notification (TaskManager.cancelledRecord record))) } := by
  obtain ⟨record, hl, hqueued⟩ := (hi.queueing.queued t).mpr (.inr (by rw [hholder]; rfl))
  refine ⟨record, hl, hqueued, ?_⟩
  have hcancel : s.taskManager.cancel t =
      (.OK, s.taskManager.notification (TaskManager.cancelledRecord record),
        s.taskManager.store t (TaskManager.cancelledRecord record)) := by
    simp [TaskManager.cancel, hl, hqueued, TaskManager.legal]
  simp [cancelTask, hcancel]

/-- A task that was not queued at the snapshot is not queued now, but it may be running. -/
theorem cancelTask_not_queued (hi : Inv s) {t : TaskID}
    (hholder : s.holder = some (.cancelTask k t false)) :
    (∃ status, status.ok = false ∧ cancelTask s k t false = s.cancelReturns k status) ∨
    ∃ record, s.record t = some record ∧ record.state = .running ∧
      cancelTask s k t false = { s with
        taskManager := s.taskManager.store t { record with cancelRequested := true }
        holder := some (.cancelReport k false none) } := by
  obtain ⟨status, hno, he, -⟩ | ⟨record, hl, hqueued, -⟩ | ⟨record, hl, hrunning, he⟩ :=
    s.taskManager.cancel_cases t
  · exact .inl ⟨status, hno, by simp [cancelTask, he, hno]⟩
  · exact absurd ⟨record, hl, hqueued⟩ (hi.queueing.cancelling k t hholder)
  · exact .inr ⟨record, hl, hrunning, by simp [cancelTask, he]⟩

theorem cancelTask_cancelling (hi : Inv s) {own : List Section} (hc : Cancelling k s own)
    {t : TaskID} {queued : Bool} (hholder : s.holder = some (.cancelTask k t queued)) :
    Cancelling k (cancelTask s k t queued)
      (own ++ [⟨s, .call .cancelTask, cancelTask s k t queued⟩]) := by
  cases hc with
  | removed hnew hholder' hbegun hsnapshot hremove =>
    rw [hholder] at hholder'
    cases hholder'
    obtain ⟨record, hl, hqueued, hstep⟩ := cancelTask_queued hi hholder
    rw [hstep]
    exact .cancelled hnew rfl hbegun hsnapshot hremove ⟨record, hl, hqueued, rfl⟩
  | cancelling hnew hholder' hbegun hsnapshot =>
    rw [hholder] at hholder'
    cases hholder'
    obtain ⟨status, hno, hstep⟩ | ⟨record, hl, hrunning, hstep⟩ :=
      cancelTask_not_queued hi hholder
    · rw [hstep]
      refine .returned (Finmap.lookup_insert _) (by simp [State.cancelReturns, Holder.cancel?])
        (.refused hno (fun x hx => ?_))
      obtain rfl | hx := List.mem_cons.mp hx
      · exact hsnapshot
      · obtain rfl := List.mem_singleton.mp hx
        rfl
    · rw [hstep]
      exact .signalled hnew rfl hbegun hsnapshot ⟨record, hl, hrunning, rfl⟩
  | removing _ hholder' | cancelled _ hholder' | signalled _ hholder' =>
    rw [hholder] at hholder'
    cases hholder'
  | outside _ hout | returned _ hout =>
    rw [hholder] at hout
    exact absurd rfl hout

theorem cancelReturn_cancelling {own : List Section} (hc : Cancelling k s own) {woken : Option Waiter}
    (hcaller : Holder.cancel? s.holder = some k) (h : callStep s (.cancelReturn woken) = some u) :
    Cancelling k u (own ++ [⟨s, .call (.cancelReturn woken), u⟩]) := by
  cases hc with
  | cancelled hnew hholder hbegun hsnapshot hremove hcancel =>
    simp only [callStep, hholder] at h
    obtain ⟨sleeping, -, rfl⟩ := Option.map_eq_some_iff.mp h
    exact .returned (Finmap.lookup_insert _) (by simp [State.cancelReturns, Holder.cancel?])
      (.queued ⟨_, _, _, _, rfl, hbegun, hsnapshot, hremove, hcancel, rfl⟩)
  | signalled hnew hholder hbegun hsnapshot hcancel =>
    simp only [callStep, hholder] at h
    cases h
    exact .returned (Finmap.lookup_insert _) (by simp [State.cancelReturns, Holder.cancel?])
      (.running ⟨_, _, _, rfl, hbegun, hsnapshot, hcancel, rfl⟩)
  | removing _ hholder | cancelling _ hholder | removed _ hholder =>
    simp [callStep, hholder] at h
  | outside _ hout | returned _ hout => exact absurd hcaller hout

theorem step_cancelling {a : Action} (h : step s a = some u) (hi : Inv s) {own : List Section}
    (hc : Cancelling k s own) : Cancelling k u (own ++ sectionOf (.cancel k) s a) := by
  by_cases hcaller : caller s a = some (.cancel k)
  · rw [sectionOf_own h hcaller]
    cases a with
    | call a =>
      cases a with
      | cancelBegin k' t =>
        simp only [caller, Option.some.injEq, Call.cancel.injEq] at hcaller
        subst hcaller
        exact cancelBegin_cancelling hc h
      | cancelRemove =>
        simp only [caller, Option.map_eq_some_iff, Call.cancel.injEq, exists_eq_right] at hcaller
        simp only [step, callStep] at h
        split at h
        · rename_i k' t hholder
          rw [hholder] at hcaller
          cases hcaller
          cases h
          exact cancelRemove_cancelling hi hc hholder
        · cases h
      | cancelTask =>
        simp only [caller, Option.map_eq_some_iff, Call.cancel.injEq, exists_eq_right] at hcaller
        simp only [step, callStep] at h
        split at h
        · rename_i k' t queued hholder
          rw [hholder] at hcaller
          cases hcaller
          cases h
          exact cancelTask_cancelling hi hc hholder
        · cases h
      | cancelReturn woken =>
        simp only [caller, Option.map_eq_some_iff, Call.cancel.injEq, exists_eq_right] at hcaller
        exact cancelReturn_cancelling hc hcaller h
      | submitBegin | submitRegister | enqueueBegin | enqueueMark | enqueuePush | drainBegin
      | drainWait => simp [caller] at hcaller
    | loop | thread | lifecycle | wake => cases hcaller
  · rw [sectionOf_other hcaller, List.append_nil]
    exact hc.aside (step_aside h hcaller)

theorem cancelling_run {workerIds : List WorkerID} {capacity : ResourceSet} {callback : Bool}
    {as : List Action} (h : Run.run step as (.initial workerIds capacity callback) = some s)
    (k : Nat) : Cancelling k s (sections (.cancel k) as (.initial workerIds capacity callback)) := by
  have hrun := Run.invariant_observed (I := fun own s => Inv s ∧ Cancelling k s own)
    (fun own s a u hs _ hstep => ⟨step_inv hstep hs.1, step_cancelling hstep hs.1 hs.2⟩)
    (Run.along_true as _) h
    ⟨inv_initial workerIds capacity callback, .outside rfl (by simp [State.initial, Holder.cancel?])⟩
  exact hrun.2

/-! ## After the cancellation -/

/-- Handlers are called for running tasks only. -/
theorem running_of_invoked (hi : Inv s) {a : Action} {t : TaskID} (h : .invoked t ∈ events s a) :
    ∃ record, s.record t = some record ∧ record.state = .running := by
  cases a with
  | loop a =>
    cases a <;> simp only [events, loopEvents, List.not_mem_nil] at h
    all_goals
      split at h
      · split at h <;> simp at h
      · cases h
  | thread w a =>
    cases a <;> simp only [events, threadEvents, List.not_mem_nil] at h
    case invoke =>
      split at h
      · rename_i work hthread
        split at h
        · obtain rfl : t = work.spec.id := by simpa using h
          obtain ⟨record, hl, hrunning, -⟩ := hi.record_of_thread (w := w) (by rw [hthread]; rfl)
          exact ⟨record, hl, hrunning⟩
        · cases h
      · cases h
    all_goals
      split at h
      · split at h <;> simp at h
      · cases h
  | call | lifecycle | wake => cases h

/-- The handler of a cancelled task is not called. -/
theorem step_cancelled {a : Action} (h : step s a = some u) (hi : Inv s) {t : TaskID}
    (ht : stateOf s.taskManager t = some .cancelled) :
    stateOf u.taskManager t = some .cancelled ∧ calls (events s a) t = 0 := by
  refine ⟨((step_taskStep h hi t).terminal ⟨_, ht, rfl⟩).trans ht, ?_⟩
  refine List.count_eq_zero_of_not_mem (fun hinvoked => ?_)
  obtain ⟨record, hl, hrunning⟩ := running_of_invoked hi hinvoked
  rw [stateOf_of_lookup hl, hrunning] at ht
  cases ht

theorem run_cancelled {as : List Action} (h : Run.run step as s = some u) (hi : Inv s) {t : TaskID}
    (ht : stateOf s.taskManager t = some .cancelled) :
    stateOf u.taskManager t = some .cancelled ∧ calls (observedIn as s) t = 0 := by
  have hrun := Run.invariant_observed
    (I := fun seen s => Inv s ∧ stateOf s.taskManager t = some .cancelled ∧ calls seen t = 0)
    (fun seen s a u hs _ hstep => by
      obtain ⟨hu, hcalls⟩ := step_cancelled hstep hs.1 hs.2.1
      exact ⟨step_inv hstep hs.1, hu, by rw [calls_append, hs.2.2, hcalls]⟩)
    (Run.along_true as _) h (⟨hi, ht, List.count_nil⟩ : _ ∧ _ ∧ calls [] t = 0)
  exact hrun.2

/-- The handler of a task that was cancelled in the queue is never called, before or after. -/
theorem never_called {workerIds : List WorkerID} {capacity : ResourceSet} {callback : Bool}
    {pre post : List Action} {x : Section} {t : TaskID}
    (hpre : Run.run step pre (.initial workerIds capacity callback) = some x.before)
    (hx : step x.before x.action = some x.after) (hcancel : x.Cancels t)
    (hpost : Run.run step post x.after = some u) :
    stateOf u.taskManager t = some .cancelled ∧
      calls (observedIn (pre ++ x.action :: post) (.initial workerIds capacity callback)) t = 0 := by
  obtain ⟨record, hl, hqueued, hafter⟩ := hcancel
  have hi := inv_run hpre
  have ht : stateOf x.after.taskManager t = some .cancelled := by
    rw [hafter, stateOf_store, if_pos rfl]
    rfl
  obtain ⟨hu, hcalls⟩ := run_cancelled hpost (step_inv hx hi) ht
  refine ⟨hu, ?_⟩
  have hbefore := ((counted_run hpre).early t (early_of_lookup hl (.inr (.inl hqueued)))).1
  have hcall : calls (events x.before x.action) t = 0 := by
    refine List.count_eq_zero_of_not_mem (fun hinvoked => ?_)
    obtain ⟨record', hl', hrunning⟩ := running_of_invoked hi hinvoked
    rw [hl] at hl'
    cases hl'
    rw [hqueued] at hrunning
    cases hrunning
  rw [observedIn, Run.observed_append hpre, Run.observed_cons hx, calls_append, calls_append]
  exact Nat.add_eq_zero_iff.mpr ⟨hbefore, Nat.add_eq_zero_iff.mpr ⟨hcall, hcalls⟩⟩

/-! ## The result -/

/-- A `Cancel` that fails has done nothing. One that succeeds has withdrawn its task from the queue,
which then never runs, or has requested the cancellation of a task that runs. -/
theorem cancel_atomic {workerIds : List WorkerID} {capacity : ResourceSet} {callback : Bool}
    {as : List Action} (h : Run.run step as (.initial workerIds capacity callback) = some s) :
    (∀ k t, s.holder = some (.cancelRemove k t) → (s.queue.remove t).1.ok = true) ∧
    (∀ k t, s.holder = some (.cancelTask k t true) → (s.taskManager.cancel t).1.ok = true) ∧
    ∀ k status, s.cancels.lookup k = some status →
      (status.ok = false →
        ∀ x ∈ sections (.cancel k) as (.initial workerIds capacity callback), x.IsQuiet) ∧
      (status.ok = true → ∃ t,
        CancelsQueued k t (sections (.cancel k) as (.initial workerIds capacity callback)) ∧
          (∀ more u, Run.run step more s = some u →
            stateOf u.taskManager t = some .cancelled ∧
            calls (observedIn (as ++ more) (.initial workerIds capacity callback)) t = 0) ∨
        CancelsRunning k t (sections (.cancel k) as (.initial workerIds capacity callback))) := by
  have hi := inv_run h
  refine ⟨fun k t => remove_ok hi, fun k t => hi.cancel_ok, fun k status hreturned => ?_⟩
  obtain ⟨own, hown⟩ : ∃ own, own = sections (.cancel k) as (.initial workerIds capacity callback) :=
    ⟨_, rfl⟩
  have hresult : CancelResult k status own := by
    have hc := cancelling_run h k
    rw [← hown] at hc
    cases hc with
    | returned hreturned' _ hresult =>
      rw [hreturned] at hreturned'
      cases hreturned'
      exact hresult
    | outside hnew | removing hnew | cancelling hnew | removed hnew | cancelled hnew
    | signalled hnew =>
      rw [hreturned] at hnew
      cases hnew
  rw [← hown]
  cases hresult with
  | refused hno hquiet =>
    refine ⟨fun _ => hquiet, fun hok => ?_⟩
    rw [hno] at hok
    cases hok
  | @running t _ hrunning =>
    refine ⟨fun hno => ?_, fun _ => ⟨t, .inr hrunning⟩⟩
    cases hno
  | @queued t _ hqueued =>
    refine ⟨fun hno => ?_, fun _ => ⟨t, .inl ⟨hqueued, fun more v hmore => ?_⟩⟩⟩
    · cases hno
    obtain ⟨snapshot, remove, cancel, finish, he, -, -, -, hcancel, -⟩ := hqueued
    have hmem : cancel ∈ sections (.cancel k) as (.initial workerIds capacity callback) := by
      rw [← hown, he]
      simp
    obtain ⟨pre, post, hsplit, hpre, hstep⟩ := mem_sections hmem
    rw [hsplit] at h ⊢
    obtain ⟨w, hw, hrest⟩ := Run.run_split h
    rw [hpre] at hw
    cases hw
    obtain ⟨w, hw, hpost⟩ := Run.run_cons_some hrest
    rw [hstep] at hw
    cases hw
    rw [List.append_assoc, List.cons_append]
    exact never_called hpre hstep hcancel (Run.run_append_some hpost hmore)

namespace Sample

/-- Two queued tasks, of which the first is cancelled. -/
def firstCancelled : List Action :=
  start ++ submit 1 (spec 1) none ++ submit 2 (spec 2) none ++
    [.call (.cancelBegin 3 (task 1)), .call .cancelRemove, .call .cancelTask,
      .call (.cancelReturn none)]

end Sample

theorem cancel_atomic_two : ∃ t,
    CancelsQueued 3 t (sections (.cancel 3) Sample.firstCancelled Sample.runtime) := by
  have hrun : Run.run step Sample.firstCancelled Sample.runtime =
      some (Run.stateAfter step Sample.firstCancelled Sample.runtime) :=
    Run.run_stateAfter (by decide)
  have hreturned : (Run.stateAfter step Sample.firstCancelled Sample.runtime).cancels.lookup 3 =
      some .OK := by decide
  obtain ⟨t, ⟨hqueued, -⟩ | hrunning⟩ := ((cancel_atomic hrun).2.2 3 .OK hreturned).2 rfl
  · exact ⟨t, hqueued⟩
  · obtain ⟨snapshot, cancel, finish, he, -⟩ := hrunning
    have hlength : (sections (.cancel 3) Sample.firstCancelled Sample.runtime).length = 4 := by
      decide
    rw [Sample.runtime] at hlength
    simp [he] at hlength

end LocalSystem

end AgentRuntime
