import AgentRuntime.Local.Completions
import AgentRuntime.Service.Requests

/-!
# What the tasks of a worker are made of

A record has the spec and the handler of a request that the worker has decoded,
and it keeps them.
-/
namespace AgentRuntime

/-! ## In the runtime -/

namespace LocalSystem

variable {s u : State} {evs : List Event}

theorem step_evolves {a : Action} (h : step s a = some u) (hi : Inv s) :
    Evolves s.taskManager u.taskManager := by
  cases a with
  | call a => exact callEffect_evolves (callEffect h hi.unfailing)
  | loop a => exact loopEffect_evolves (loopEffect h hi.unfailing)
  | thread w a => exact threadEffect_evolves (threadEffect h hi.unfailing)
  | lifecycle a =>
    rw [(lifecycleEffect h hi.stage).taskManager]
    exact .refl _
  | wake waiter =>
    obtain rfl := step_wake h
    exact .refl _

/-- Outside `Submit` no record is made. -/
theorem TaskStep.none {t : TaskID} {y : Option ExecutionState} {holder : Option Holder}
    (h : TaskStep (fun _ _ => False) holder t .none y) : y = .none := by
  cases h with
  | stay => rfl
  | register hsubmit => exact hsubmit.elim

/-- A new record is made by the `Submit` that has `lifecycle_mu_`. -/
theorem step_registers {a : Action} (h : step s a = some u) (hi : Inv s) {t : TaskID}
    {record : TaskRecord} (hnew : s.record t = none) (hl : u.record t = some record) :
    ∃ k, s.lifecycle = some (.registering k record.spec record.handler) := by
  have hnone : stateOf s.taskManager t = none := by
    rw [stateOf_record, hnew]
    rfl
  have hsome : stateOf u.taskManager t = some record.state := stateOf_of_lookup hl
  cases a with
  | call a =>
    have he := callEffect h hi.unfailing
    have hl' : u.taskManager.records.lookup t = some record := hl
    have hstored : ∀ {id : TaskID} {old new : TaskRecord}, s.record id = some old →
        (s.taskManager.store id new).records.lookup t = some record → False := by
      intro id old new hold hlookup
      rw [TaskManager.lookup_store] at hlookup
      split at hlookup
      · rename_i heq
        rw [heq, hold] at hnew
        cases hnew
      · exact absurd (hnew.symm.trans hlookup) (by simp)
    generalize u.taskManager = tm at he hl'
    generalize u.queue = queue at he
    generalize hholder : u.holder = holder at he
    generalize s.holder = holder' at he
    cases he with
    | register _ hsubmit _ _ =>
      rw [TaskManager.lookup_store] at hl'
      split at hl'
      · cases hl'
        exact hsubmit
      · exact absurd (hnew.symm.trans hl') (by simp)
    | markQueued hrecord _ | cancelQueued hrecord _ _ | cancelRunning hrecord _ =>
      exact (hstored hrecord hl').elim
    | same | beginEnqueue | beginRemove | beginCancel | push | remove | refuseEnqueue
    | refuseCancel | «return» => exact absurd (hnew.symm.trans hl') (by simp)
  | loop a =>
    have hstep : TaskStep (fun _ _ => False) s.holder t _ _ :=
      loopEffect_taskStep (loopEffect h hi.unfailing) t
    rw [hnone] at hstep
    exact absurd (hsome.symm.trans hstep.none) (by simp)
  | thread w a =>
    have hstep : TaskStep (fun _ _ => False) s.holder t _ _ :=
      threadEffect_taskStep (threadEffect h hi.unfailing) t
    rw [hnone] at hstep
    exact absurd (hsome.symm.trans hstep.none) (by simp)
  | lifecycle a =>
    rw [(lifecycleEffect h hi.stage).taskManager, hnone] at hsome
    cases hsome
  | wake waiter =>
    obtain rfl := step_wake h
    rw [hnone] at hsome
    cases hsome

/-- Only `Submit` comes to the registration, with its own arguments. -/
theorem step_registering {a : Action} (h : step s a = some u) (hi : Inv s) {k : Nat}
    {spec : TaskSpec} {handler : TaskHandler}
    (hl : u.lifecycle = some (.registering k spec handler)) :
    s.lifecycle = some (.registering k spec handler) ∨
      a = .call (.submitBegin k spec handler) := by
  cases a with
  | call a =>
    have h : callStep s a = some u := h
    cases callMove h with
    | passChecks hlife hchecks =>
      cases hl
      exact .inr rfl
    | _ => first | exact .inl hl | cases hl
  | loop a =>
    have he := loopEffect h hi.unfailing
    generalize loopEvents s a = evs at he
    cases he <;> exact .inl hl
  | thread w a =>
    have he := threadEffect h hi.unfailing
    generalize threadEvents s w a = evs at he
    cases he <;> exact .inl hl
  | lifecycle a =>
    obtain heq | ⟨-, hno⟩ := (lifecycleEffect h hi.stage).lifecycle
    · exact .inl (heq ▸ hl)
    · rw [hl] at hno
      cases hno
  | wake waiter =>
    obtain rfl := step_wake h
    exact .inl hl

end LocalSystem

/-! ## At the worker -/

namespace WorkerService

variable {s u : State} {a : Action}

/-- What a request asks for. -/
def contents? (s : State) (n : Nat) : Option (ExecutionID × TaskSpec × TaskHandler) :=
  (s.launches.lookup n).map fun l => (l.executionId, l.spec, l.handler)

/-- A request keeps its contents; one that arrives has those of its descriptor. -/
theorem step_contents (h : Effect s a u) (hstep : step s a = some u) (n : Nat) :
    contents? u n = contents? s n ∨ contents? s n = none ∧ ∃ task e spec handler,
      a = .launchBegin n task ∧ decodeLaunch s.registry task = .ok (e, spec, handler) ∧
        contents? u n = some (e, spec, handler) := by
  have keep : ∀ {m : Nat} {l l' : Launch}, s.launches.lookup m = some l →
      u.launches = s.launches.insert m l' → l'.executionId = l.executionId →
      l'.spec = l.spec → l'.handler = l.handler → contents? u n = contents? s n := by
    intro m l l' hl hu he hspec hhandler
    simp only [contents?, hu, UnorderedMap.lookup_insert_eq]
    split
    · rename_i hn
      rw [hn, hl, Option.map_some, Option.map_some, he, hspec, hhandler]
    · rfl
  cases h with
  | @begin m task l hnew hphase =>
    obtain ⟨e, spec, handler, hdecode, hu⟩ | ⟨status, -, hu⟩ := launchBegin_cases hstep
    · rw [hu]
      by_cases hn : n = m
      · subst hn
        exact .inr ⟨by rw [contents?, hnew]; rfl, task, e, spec, handler, rfl, hdecode,
          by simp [contents?]⟩
      · exact .inl (by simp [contents?, hn])
    · exact .inl (by rw [hu]; rfl)
  | reject hl | replay hl | claim hl | submit hl | store hl =>
    exact .inl (keep hl rfl rfl rfl rfl)
  | undecoded | cancel | cancelRuntime | unreported | report | callbackReturn | runtime | leave =>
    exact .inl rfl

theorem contents_after (h : Effect s a u) (hstep : step s a = some u) {n : Nat}
    {e : ExecutionID} {spec : TaskSpec} {handler : TaskHandler}
    (hc : contents? s n = some (e, spec, handler)) :
    contents? u n = some (e, spec, handler) := by
  obtain hsame | ⟨hnone, -⟩ := step_contents h hstep n
  · rw [hsame, hc]
  · rw [hc] at hnone
    cases hnone

/-- What is registered at the worker has come with a request. -/
structure Sourced (s : State) : Prop where
  registering : ∀ n spec handler, s.runtime.lifecycle = some (.registering n spec handler) →
    ∃ e, contents? s n = some (e, spec, handler)
  records : ∀ t record, s.runtime.record t = some record →
    ∃ n e, contents? s n = some (e, record.spec, record.handler)

variable {registry : HandlerRegistry} {workerIds : List WorkerID} {capacity : ResourceSet}
  {reporter : Bool}

theorem sourced_initial : Sourced (.initial registry workerIds capacity reporter) where
  registering n spec handler h := by simp [State.initial, LocalSystem.State.initial] at h
  records t record h := by
    simp [State.initial, LocalSystem.State.initial, LocalSystem.State.record] at h

/-- `Submit` is called with what the request asks for. -/
theorem runtime_moves (h : Effect s a u) : u.runtime = s.runtime ∨
    ∃ b, LocalSystem.step s.runtime b = some u.runtime ∧ ∀ n spec handler,
      b = .call (.submitBegin n spec handler) → ∃ e, contents? s n = some (e, spec, handler) := by
  cases h with
  | @submit n l runtime hl hphase hstep =>
    refine .inr ⟨_, hstep, fun n' spec handler hb => ?_⟩
    cases hb
    exact ⟨l.executionId, by rw [contents?, hl]; rfl⟩
  | cancelRuntime phase hstep => exact .inr ⟨_, hstep, fun _ _ _ hb => by cases hb⟩
  | runtime hcall hstays hstep | leave hcall hleaves hcalled hstep =>
    refine .inr ⟨_, hstep, fun _ _ _ hb => ?_⟩
    rw [hb] at hcall
    cases hcall
  | begin | undecoded | reject | replay | claim | store | cancel | unreported | report
  | callbackReturn => exact .inl rfl

theorem step_sourced (h : Effect s a u) (hstep : step s a = some u) (hi : Ledger s)
    (hs : Sourced s) : Sourced u := by
  have hinv := hi.sound.inv
  obtain hsame | ⟨b, hb, hsubmit⟩ := runtime_moves h
  · refine ⟨fun n spec handler hl => ?_, fun t record hl => ?_⟩
    · rw [hsame] at hl
      obtain ⟨e, hc⟩ := hs.registering n spec handler hl
      exact ⟨e, contents_after h hstep hc⟩
    · rw [hsame] at hl
      obtain ⟨n, e, hc⟩ := hs.records t record hl
      exact ⟨n, e, contents_after h hstep hc⟩
  · refine ⟨fun n spec handler hl => ?_, fun t record hl => ?_⟩
    · obtain hold | hcall := LocalSystem.step_registering hb hinv hl
      · obtain ⟨e, hc⟩ := hs.registering n spec handler hold
        exact ⟨e, contents_after h hstep hc⟩
      · obtain ⟨e, hc⟩ := hsubmit n spec handler hcall
        exact ⟨e, contents_after h hstep hc⟩
    · cases hold : s.runtime.record t with
      | none =>
        obtain ⟨n, hlife⟩ := LocalSystem.step_registers hb hinv hold hl
        obtain ⟨e, hc⟩ := hs.registering n _ _ hlife
        exact ⟨n, e, contents_after h hstep hc⟩
      | some old =>
        obtain ⟨record', hl', hspec, hhandler⟩ :=
          (LocalSystem.step_evolves hb hinv).kept t old hold
        have heq : record' = record := by
          have hl'' : u.runtime.taskManager.records.lookup t = some record := hl
          rw [hl'] at hl''
          exact Option.some.inj hl''
        subst heq
        obtain ⟨n, e, hc⟩ := hs.records t old hold
        rw [hspec, hhandler]
        exact ⟨n, e, contents_after h hstep hc⟩

/-- A worker calls the handler of a task at most once. -/
theorem invocations_le_one {as : List Action}
    (h : Run.run step as (.initial registry workerIds capacity reporter) = some s) (t : TaskID) :
    invocations (observedIn as (.initial registry workerIds capacity reporter)) t ≤ 1 := by
  obtain ⟨bs, hbs, hseen⟩ := runtime_run h
  rw [invocations_eq, ← hseen]
  exact ((LocalSystem.counted_run hbs).bounds (LocalSystem.inv_run hbs) t).1

end WorkerService

end AgentRuntime
