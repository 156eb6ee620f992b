import AgentRuntime.Local.Invariant

/-!
# Every accepted task fits on some worker

`Submit` refuses a task that exceeds the total resources of every worker. The
totals never change, so the check stays true of every task that is registered.
-/
namespace AgentRuntime

namespace LocalSystem

variable {submitting : TaskSpec → TaskHandler → Prop} {rm : ResourceManager}
  {tm tm' : TaskManager} {queue queue' : TaskQueue} {holder holder' : Option Holder}
  {s u : State} {evs : List Event}

/-- The check of `Submit` on the resources of the task. -/
def Placeable (rm : ResourceManager) (workerIds : List WorkerID) (spec : TaskSpec) : Prop :=
  ∃ w ∈ workerIds, rm.canFitTotal w spec.resources = true

structure Admitted (s : State) : Prop where
  registering : ∀ k spec handler, s.lifecycle = some (.registering k spec handler) →
    Placeable s.resourceManager s.pool.workerIds spec
  records : ∀ t record, s.record t = some record →
    Placeable s.resourceManager s.pool.workerIds record.spec

theorem admitted_initial (workerIds : List WorkerID) (capacity : ResourceSet) (callback : Bool) :
    Admitted (.initial workerIds capacity callback) where
  registering _ _ _ h := by cases h
  records t record h := by simp [State.record, State.initial] at h

theorem placeable_of_submitChecks {spec : TaskSpec} {handler : TaskHandler}
    (h : (submitChecks s spec handler).ok = true) :
    Placeable s.resourceManager s.pool.workerIds spec := by
  simp only [submitChecks] at h
  split at h
  · cases h
  · split at h
    · rename_i hinvalid
      simp [h] at hinvalid
    · split at h
      · cases h
      · split at h
        · rename_i hany
          obtain ⟨w, hmem, hfits⟩ := List.any_eq_true.mp hany
          exact ⟨w, hmem, hfits⟩
        · cases h

/-- The totals of the workers do not shrink. -/
theorem Placeable.mono {rm' : ResourceManager} {workerIds : List WorkerID} {spec : TaskSpec}
    (h : Placeable rm workerIds spec)
    (hreg : ∀ w, rm.registered w → rm'.registered w ∧ rm'.total w = rm.total w) :
    Placeable rm' workerIds spec := by
  obtain ⟨w, hmem, hfits⟩ := h
  obtain ⟨hw, hle⟩ := ResourceManager.canFitTotal_iff.mp hfits
  obtain ⟨hw', htotal⟩ := hreg w hw
  exact ⟨w, hmem, ResourceManager.canFitTotal_iff.mpr ⟨hw', htotal ▸ hle⟩⟩

/-- No task is added, and those that are there keep their spec. -/
def SpecsKept (tm tm' : TaskManager) : Prop :=
  ∀ t record', tm'.records.lookup t = some record' →
    ∃ record, tm.records.lookup t = some record ∧ record'.spec = record.spec

theorem SpecsKept.refl (tm : TaskManager) : SpecsKept tm tm := fun _ record h => ⟨record, h, rfl⟩

theorem specsKept_store {t : TaskID} {record record' : TaskRecord}
    (hrecord : tm.records.lookup t = some record) (hspec : record'.spec = record.spec) :
    SpecsKept tm (tm.store t record') := by
  intro t' r hr
  rw [TaskManager.lookup_store] at hr
  split at hr
  · rename_i he
    cases hr
    exact ⟨record, he ▸ hrecord, hspec⟩
  · exact ⟨r, hr, rfl⟩

theorem loopEffect_specsKept (h : LoopEffect s evs u) : SpecsKept s.taskManager u.taskManager := by
  cases h with
  | mark _ _ hrecord _ => exact specsKept_store hrecord rfl
  | rest | peek | spec | observe | choose | skip | select | giveUp | reserve | acquire | handler
  | token | pop | dispatch => exact .refl _

theorem threadEffect_specsKept {w : WorkerID} (h : ThreadEffect s w evs u) :
    SpecsKept s.taskManager u.taskManager := by
  cases h with
  | markRunning _ hrecord _ => exact specsKept_store hrecord rfl
  | complete _ _ hrecord _ _ => exact specsKept_store hrecord rfl
  | take | leave | invoke | leaveHandler | reported | becomeIdle | erase | eraseNone | release
  | wake | announce => exact .refl _

/-- A call adds the task that it is registering, or none. -/
theorem callEffect_specs (h : CallEffect submitting tm queue holder tm' queue' holder') :
    SpecsKept tm tm' ∨ ∃ spec handler, submitting spec handler ∧
      tm' = tm.store spec.id (TaskManager.newRecord spec handler) := by
  cases h with
  | register _ hsubmit _ _ => exact .inr ⟨_, _, hsubmit, rfl⟩
  | markQueued hrecord _ | cancelQueued hrecord _ | cancelRunning hrecord _ =>
    exact .inl (specsKept_store hrecord rfl)
  | same | beginEnqueue | beginRemove | beginCancel | push | remove | refuseEnqueue
  | refuseCancel | «return» => exact .inl (.refl _)

/-- A step that registers nothing. -/
theorem Admitted.keep (h : Admitted s) (htm : SpecsKept s.taskManager u.taskManager)
    (hids : u.pool.workerIds = s.pool.workerIds)
    (hreg : ∀ w, s.resourceManager.registered w → u.resourceManager.registered w ∧
      u.resourceManager.total w = s.resourceManager.total w)
    (hlife : ∀ k spec handler, u.lifecycle = some (.registering k spec handler) →
      s.lifecycle = some (.registering k spec handler)) : Admitted u where
  registering k spec handler hl := by
    rw [hids]
    exact (h.registering k spec handler (hlife k spec handler hl)).mono hreg
  records t record' hl := by
    obtain ⟨record, hl', hspec⟩ := htm t record' hl
    rw [hids, hspec]
    exact (h.records t record hl').mono hreg

theorem callStep_admitted {a : CallAction} (h : callStep s a = some u) (hi : Inv s)
    (ha : Admitted s) : Admitted u := by
  have hframe := callFrame h
  have hlife : ∀ k spec handler, u.lifecycle = some (.registering k spec handler) →
      Placeable s.resourceManager s.pool.workerIds spec := by
    intro k spec handler hl
    have hcase := hframe.lifecycle
    rw [hl] at hcase
    generalize hx : some (LifecycleHolder.registering k spec handler) = x at hcase
    cases hcase with
    | same => exact ha.registering k spec handler hx.symm
    | admitted hchecks =>
      cases hx
      exact placeable_of_submitChecks hchecks
    | returned | registered | entered => cases hx
  refine ⟨?_, ?_⟩
  · rw [hframe.resourceManager, hframe.pool]
    exact hlife
  · rw [hframe.resourceManager, hframe.pool]
    intro t record' hl
    obtain hkept | ⟨spec, handler, ⟨k, hk⟩, he⟩ := callEffect_specs (callEffect h hi.unfailing)
    · obtain ⟨record, hl', hspec⟩ := hkept t record' hl
      rw [hspec]
      exact ha.records t record hl'
    · rw [State.record, he, TaskManager.lookup_store] at hl
      split at hl
      · cases hl
        exact ha.registering k spec handler hk
      · exact ha.records t record' hl

theorem step_admitted {a : Action} (h : step s a = some u) (hi : Inv s) (ha : Admitted s) :
    Admitted u := by
  cases a with
  | call a => exact callStep_admitted h hi ha
  | loop a =>
    have he := loopEffect h hi.unfailing
    refine ha.keep (loopEffect_specsKept he) ?_ ?_ ?_
    · generalize loopEvents s a = evs at he
      cases he <;> rfl
    · intro w hw
      generalize loopEvents s a = evs at he
      cases he with
      | acquire hholder hfits =>
        obtain ⟨-, htotal, hreg, -⟩ := ResourceManager.acquire_fits hfits
        simp only [State.setTry, htotal, hreg]
        exact ⟨hw, trivial⟩
      | rest | peek | spec | observe | choose | skip | select | giveUp | reserve | handler
      | token | pop | mark | dispatch => exact ⟨hw, rfl⟩
    · generalize loopEvents s a = evs at he
      cases he <;> exact fun _ _ _ hl => hl
  | thread w a =>
    have he := threadEffect h hi.unfailing
    refine ha.keep (threadEffect_specsKept he) ?_ ?_ ?_
    · generalize threadEvents s w a = evs at he
      cases he <;> rfl
    · intro w' hw'
      generalize threadEvents s w a = evs at he
      cases he with
      | @release reservation hthread =>
        obtain ⟨htotal, hreg, -⟩ := s.resourceManager.release_cases w reservation.resources
        simp only [State.setThread, State.setWorker, htotal, hreg]
        exact ⟨hw', trivial⟩
      | take | leave | markRunning | invoke | leaveHandler | complete | reported | becomeIdle
      | erase | eraseNone | wake | announce => exact ⟨hw', rfl⟩
    · generalize threadEvents s w a = evs at he
      cases he <;> exact fun _ _ _ hl => hl
  | lifecycle a =>
    obtain ⟨htm, -, -, -, -, hlife, hpools⟩ := lifecycleEffect h hi.stage
    have hreg : ∀ k spec handler, u.lifecycle = some (.registering k spec handler) →
        s.lifecycle = some (.registering k spec handler) := by
      intro k spec handler hl
      obtain he | ⟨-, hno⟩ := hlife
      · exact he ▸ hl
      · rw [hl] at hno
        cases hno
    refine ha.keep (htm ▸ .refl _) ?_ ?_ hreg
    · generalize u.resourceManager = rm at hpools
      generalize u.pool = pool at hpools
      cases hpools with
      | startPool =>
        simp only [WorkerPool.start]
        split <;> rfl
      | same | register | closePool | requestStop | reset => rfl
    · intro w hw
      generalize u.resourceManager = rm at hpools
      generalize u.pool = pool at hpools
      cases hpools with
      | register =>
        obtain he | ⟨hnone, -⟩ := lookup_registerAll s.resourcesPerWorker s.pool.workerIds
          s.resourceManager w
        · refine ⟨by simpa only [ResourceManager.registered, he] using hw, ?_⟩
          funext name
          simp only [ResourceManager.total, he]
        · simp [ResourceManager.registered, hnone] at hw
      | same | startPool | closePool | requestStop | reset => exact ⟨hw, rfl⟩
  | wake waiter =>
    obtain rfl := step_wake h
    exact ⟨ha.registering, ha.records⟩

end LocalSystem

end AgentRuntime
