import AgentRuntime.Service.Admissions

/-!
# The requests and the tasks they submit

A request keeps its execution and its task. Of the requests for one task, one
registers it, and its submission is the one that is accepted.
-/
namespace AgentRuntime

namespace WorkerService

open LocalSystem (Course course refuses stateOf)

/-- The execution and the task of a request. -/
def identity? (s : State) (n : Nat) : Option (ExecutionID × TaskID) :=
  (s.launches.lookup n).map (fun l => (l.executionId, l.spec.id))

/-- The request has called `Submit` for the task under the execution, and that has returned. -/
def Returned (s : State) (n : Nat) (e : ExecutionID) (t : TaskID) (status : Status) : Prop :=
  identity? s n = some (e, t) ∧ s.runtime.submits.lookup n = some status

def Accepted (s : State) (n : Nat) (e : ExecutionID) (t : TaskID) : Prop :=
  ∃ status, Returned s n e t status ∧ status.ok = true

variable {registry : HandlerRegistry} {workerIds : List WorkerID} {capacity : ResourceSet}
  {reporter : Bool} {s u : State} {a : Action} {seen : List Event}

theorem identity_of_lookup {n : Nat} {l : Launch} (h : s.launches.lookup n = some l) :
    identity? s n = some (l.executionId, l.spec.id) := by
  rw [identity?, h]
  rfl

/-- Requests keep their execution and task; one that arrives changes nothing else. -/
theorem step_identity (h : Effect s a u) (n : Nat) : identity? u n = identity? s n ∨
    identity? s n = none ∧ u.runtime = s.runtime ∧ ∃ task, a = .launchBegin n task := by
  have keep : ∀ {m : Nat} {l l' : Launch}, s.launches.lookup m = some l →
      u.launches = s.launches.insert m l' → l'.executionId = l.executionId →
      l'.spec = l.spec → identity? u n = identity? s n := by
    intro m l l' hl hu he hspec
    simp only [identity?, hu, UnorderedMap.lookup_insert_eq]
    split
    · rename_i hn
      rw [hn, hl, Option.map_some, Option.map_some, he, hspec]
    · rfl
  cases h with
  | @begin m task l hnew hphase =>
    by_cases hn : n = m
    · exact .inr ⟨by rw [identity?, hn, hnew]; rfl, rfl, task, by rw [hn]⟩
    · exact .inl (by simp [identity?, State.setLaunch, hn])
  | reject hl | replay hl | claim hl | submit hl | store hl => exact .inl (keep hl rfl rfl rfl)
  | undecoded | cancel | cancelRuntime | unreported | report | callbackReturn | runtime | leave =>
    exact .inl rfl

/-- A request arrives and is decoded, or is answered at once. -/
theorem launchBegin_cases {n : Nat} {task : TaskDescriptor}
    (h : step s (.launchBegin n task) = some u) :
    (∃ e spec handler, decodeLaunch s.registry task = .ok (e, spec, handler) ∧
      u = s.setLaunch n ⟨e, spec, handler, .claiming⟩) ∨
    ∃ status, decodeLaunch s.registry task = .error status ∧
      u = { s with undecoded := s.undecoded.insert n status } := by
  simp only [step] at h
  split at h
  · cases h
    simp only [launchBegin]
    split
    · rename_i status hdecode
      exact .inr ⟨status, hdecode, rfl⟩
    · rename_i hdecode
      exact .inl ⟨_, _, _, hdecode, rfl⟩
  · cases h

theorem step_registry (h : Effect s a u) : u.registry = s.registry := by
  cases h <;> rfl

/-- Nothing but its arrival changes the identity of a request. -/
theorem step_identity_other (h : Effect s a u) (ha : ∀ n task, a ≠ .launchBegin n task) :
    u.undecoded = s.undecoded ∧ ∀ n, identity? u n = identity? s n := by
  have hundecoded : u.undecoded = s.undecoded := by
    cases h with
    | undecoded n task => exact absurd rfl (ha n task)
    | begin | reject | replay | claim | submit | store | cancel | cancelRuntime | unreported
    | report | callbackReturn | runtime | leave => rfl
  refine ⟨hundecoded, fun n => ?_⟩
  obtain hsame | ⟨-, -, task, hlaunch⟩ := step_identity h n
  · exact hsame
  · exact absurd hlaunch (ha n task)

/-- The call of a request that has not arrived has not begun. -/
theorem Ledger.outside (hi : Ledger s) {n : Nat} (h : identity? s n = none) :
    course s.runtime n = .outside := by
  have hlinked := hi.linked n
  rwa [Option.map_eq_none_iff.mp h] at hlinked

/-- A call that is inside `Submit` is for the task of its request. -/
theorem Ledger.inside (hi : Ledger s) {n : Nat} {c : Course} (hc : course s.runtime n = c)
    (hinside : c.isInside = true) : ∃ l, s.launches.lookup n = some l ∧ Course.isOf l.spec c := by
  have hlinked := hi.linked n
  rw [hc] at hlinked
  obtain ⟨l, hl, -, hof⟩ := hlinked.inside hinside
  exact ⟨l, hl, hof⟩

/-- A request that has come to make the record of its task has its identity already. -/
theorem identity_before (h : Effect s a u) (hi : Ledger s) {n : Nat} {e : ExecutionID}
    {t : TaskID} (hid : identity? u n = some (e, t))
    (hc : (course u.runtime n).isRegistered = true) : identity? s n = some (e, t) := by
  obtain hsame | ⟨hnone, hruntime, -⟩ := step_identity h n
  · rw [← hsame]
    exact hid
  · rw [hruntime, hi.outside hnone] at hc
    cases hc

theorem identity_after (h : Effect s a u) {n : Nat} {e : ExecutionID} {t : TaskID}
    (hid : identity? s n = some (e, t)) : identity? u n = some (e, t) := by
  obtain hsame | ⟨hnone, -, -⟩ := step_identity h n
  · rw [hsame]
    exact hid
  · rw [hnone] at hid
    cases hid

/-- The task of a call that has registered it is that of its request. -/
theorem Ledger.task_eq (hi : Ledger s) {n : Nat} {e : ExecutionID} {t t' : TaskID}
    (hc : course s.runtime n = .registered t' ∨ course s.runtime n = .marked t')
    (hid : identity? s n = some (e, t)) : t' = t := by
  have hof : ∃ l, s.launches.lookup n = some l ∧ t' = l.spec.id := by
    obtain hc | hc := hc
    · exact hi.inside hc rfl
    · exact hi.inside hc rfl
  obtain ⟨l, hl, ht⟩ := hof
  rw [identity_of_lookup hl] at hid
  exact ht.trans (congrArg Prod.snd (Option.some.inj hid))

theorem registered_before (h : Effect s a u) (hi : Ledger s) {n : Nat} {e : ExecutionID}
    {t : TaskID} (hid : identity? u n = some (e, t))
    (hc : (course u.runtime n).isRegistered = true) :
    (course s.runtime n).isRegistered = true ∨ stateOf s.runtime.taskManager t = none ∧
      (∃ y, stateOf u.runtime.taskManager t = some y) ∧
      (∃ spec, s.runtime.submitting? = some (n, .checked spec)) ∧
      a = .runtime (.call .submitRegister) ∧ refuses s.runtime .submitRegister = false := by
  obtain ⟨hsame, -⟩ | ⟨b, hstep, -, hb⟩ := step_runtime h
  · rw [hsame] at hc
    exact .inl hc
  · have hcourse := (LocalSystem.step_course hstep hi.sound.submitting).2 n
    obtain hbefore | ⟨spec, hregistered, hinside, hnew, hmade, rfl, hpasses⟩ :=
      hcourse.registered hc
    · exact .inl hbefore
    · obtain rfl := (effect_ledger h hi).task_eq (.inl hregistered) hid
      obtain rfl | hcall := hb
      · exact .inr ⟨hnew, ⟨_, hmade⟩, ⟨spec, hinside⟩, rfl, hpasses⟩
      · cases hcall

/-- A request that is about to mark its task got past the check of `Enqueue`. -/
theorem entered_before (h : Effect s a u) {n : Nat} {t : TaskID}
    (hholder : u.runtime.holder = some (.enqueueMark n t)) :
    s.runtime.holder = some (.enqueueMark n t) ∨ a = .runtime (.call .enqueueBegin) ∧
      s.runtime.lifecycle = some (.enqueuing n t) ∧ refuses s.runtime .enqueueBegin = false := by
  obtain ⟨hsame, -⟩ | ⟨b, hstep, -, hb⟩ := step_runtime h
  · rw [hsame] at hholder
    exact .inl hholder
  · obtain hbefore | ⟨rfl, hlife, hopen⟩ := LocalSystem.entered_before hstep hholder
    · exact .inl hbefore
    · obtain rfl | hcall := hb
      · exact .inr ⟨rfl, hlife, hopen⟩
      · cases hcall

theorem accepted_before (h : Effect s a u) (hi : Ledger s) {n : Nat} {e : ExecutionID}
    {t : TaskID} (hid : identity? s n = some (e, t))
    (hc : (course u.runtime n).isAccepted = true) :
    (course s.runtime n).isAccepted = true ∨
      a = .runtime (.call .enqueueMark) ∧ s.runtime.holder = some (.enqueueMark n t) ∧
        refuses s.runtime .enqueueMark = false := by
  obtain ⟨hsame, -⟩ | ⟨b, hstep, -, hb⟩ := step_runtime h
  · rw [hsame] at hc
    exact .inl hc
  · have hcourse := (LocalSystem.step_course hstep hi.sound.submitting).2 n
    obtain hbefore | ⟨t', hregistered, rfl, hholder, hpasses⟩ := hcourse.accepts hc
    · exact .inl hbefore
    · obtain rfl := hi.task_eq (.inl hregistered) hid
      obtain rfl | hcall := hb
      · exact .inr ⟨rfl, hholder, hpasses⟩
      · cases hcall

theorem accepted_after (h : Effect s a u) (hi : Ledger s) {n : Nat}
    (hc : (course s.runtime n).isAccepted = true) : (course u.runtime n).isAccepted = true := by
  obtain ⟨hsame, -⟩ | ⟨b, hstep, -⟩ := step_runtime h
  · rw [hsame]
    exact hc
  · exact ((LocalSystem.step_course hstep hi.sound.submitting).2 n).accepted hc

/-- A record is never taken out. -/
theorem record_after (h : Effect s a u) (hi : Ledger s) {t : TaskID} {x : ExecutionState}
    (hx : stateOf s.runtime.taskManager t = some x) :
    ∃ y, stateOf u.runtime.taskManager t = some y := by
  obtain ⟨hsame, -⟩ | ⟨b, hstep, -⟩ := step_runtime h
  · rw [hsame]
    exact ⟨x, hx⟩
  · have htask := LocalSystem.step_taskStep hstep hi.sound.inv t
    rw [hx] at htask
    exact htask.kept

/-- A task that is past its pending state was so before, or its submission is accepted now. -/
theorem queued_before (h : Effect s a u) (hi : Ledger s) {t : TaskID} {y : ExecutionState}
    (hy : stateOf u.runtime.taskManager t = some y) (hne : y ≠ .pending) :
    (∃ x, stateOf s.runtime.taskManager t = some x ∧ x ≠ .pending) ∨
      ∃ n e, identity? s n = some (e, t) ∧ (course u.runtime n).isAccepted = true := by
  obtain ⟨hsame, -⟩ | ⟨b, hstep, -⟩ := step_runtime h
  · rw [hsame] at hy
    exact .inl ⟨y, hy, hne⟩
  · have htask := LocalSystem.step_taskStep hstep hi.sound.inv t
    rw [hy] at htask
    generalize hx : stateOf s.runtime.taskManager t = x at htask
    cases htask with
    | stay => exact .inl ⟨y, rfl, hne⟩
    | register => exact absurd rfl hne
    | queue =>
      obtain ⟨-, n, -, hregistered, hmarked⟩ :=
        LocalSystem.step_queues hstep hi.sound.inv hi.sound.submitting hx hy
      obtain ⟨l, hl, ht⟩ := hi.inside hregistered rfl
      refine .inr ⟨n, l.executionId, ?_, ?_⟩
      · rw [identity_of_lookup hl, show t = l.spec.id from ht]
      · rw [hmarked]
        rfl
    | @advance x' y' hactive _ =>
      refine .inl ⟨x', rfl, ?_⟩
      rintro rfl
      cases hactive

/-! ## The invariant -/

/-- Each task in the table has its one request, which is accepted once the task is queued. -/
structure Owned (s : State) : Prop where
  recorded : ∀ n e t, identity? s n = some (e, t) → (course s.runtime n).isRegistered = true →
    ∃ x, stateOf s.runtime.taskManager t = some x
  unique : ∀ n n' e e' t, identity? s n = some (e, t) → identity? s n' = some (e', t) →
    (course s.runtime n).isRegistered = true → (course s.runtime n').isRegistered = true → n = n'
  accepted : ∀ t x, stateOf s.runtime.taskManager t = some x → x ≠ .pending →
    ∃ n e, identity? s n = some (e, t) ∧ (course s.runtime n).isAccepted = true

theorem owned_initial : Owned (.initial registry workerIds capacity reporter) where
  recorded _ _ _ h := by simp [identity?, State.initial] at h
  unique _ _ _ _ _ h := by simp [identity?, State.initial] at h
  accepted _ _ h := by simp [stateOf, State.initial, LocalSystem.State.initial] at h

theorem step_owned (h : Effect s a u) (hi : Ledger s) (ho : Owned s) : Owned u where
  recorded n e t hid hc := by
    obtain hbefore | ⟨-, hmade, -⟩ := registered_before h hi hid hc
    · obtain ⟨x, hx⟩ := ho.recorded n e t (identity_before h hi hid hc) hbefore
      exact record_after h hi hx
    · exact hmade
  unique n n' e e' t hid hid' hc hc' := by
    have hs := identity_before h hi hid hc
    have hs' := identity_before h hi hid' hc'
    obtain hbefore | ⟨hnone, -, ⟨spec, hinside⟩, -⟩ := registered_before h hi hid hc
    · obtain hbefore' | ⟨hnone, -⟩ := registered_before h hi hid' hc'
      · exact ho.unique n n' e e' t hs hs' hbefore hbefore'
      · obtain ⟨x, hx⟩ := ho.recorded n e t hs hbefore
        rw [hnone] at hx
        cases hx
    · obtain hbefore' | ⟨-, -, ⟨spec', hinside'⟩, -⟩ := registered_before h hi hid' hc'
      · obtain ⟨x, hx⟩ := ho.recorded n' e' t hs' hbefore'
        rw [hnone] at hx
        cases hx
      · rw [hinside] at hinside'
        cases hinside'
        rfl
  accepted t y hy hne := by
    obtain ⟨x, hx, hne'⟩ | ⟨n, e, hid, hc⟩ := queued_before h hi hy hne
    · obtain ⟨n, e, hid, hc⟩ := ho.accepted t x hx hne'
      exact ⟨n, e, identity_after h hid, accepted_after h hi hc⟩
    · exact ⟨n, e, identity_after h hid, hc⟩

/-- What a submission has returned stays. -/
theorem step_returned (h : Effect s a u) (hi : Ledger s) {n : Nat} {e : ExecutionID} {t : TaskID}
    {status : Status} (hr : Returned s n e t status) : Returned u n e t status := by
  obtain ⟨hid, hstatus⟩ := hr
  refine ⟨identity_after h hid, ?_⟩
  obtain ⟨hsame, -⟩ | ⟨b, hstep, -⟩ := step_runtime h
  · rw [hsame]
    exact hstatus
  · have hcourse := (LocalSystem.step_course hstep hi.sound.submitting).2 n
    rw [LocalSystem.course_of_returned hstatus] at hcourse
    exact LocalSystem.returned_of_course hcourse.returned

theorem step_accepted (h : Effect s a u) (hi : Ledger s) {n : Nat} {e : ExecutionID} {t : TaskID}
    (hacc : Accepted s n e t) : Accepted u n e t := by
  obtain ⟨status, hr, hok⟩ := hacc
  exact ⟨status, step_returned h hi hr, hok⟩

theorem Accepted.registered {n : Nat} {e : ExecutionID} {t : TaskID} (h : Accepted s n e t) :
    (course s.runtime n).isRegistered = true := by
  obtain ⟨status, ⟨-, hstatus⟩, hok⟩ := h
  rw [LocalSystem.course_of_returned hstatus]
  exact hok

/-- One task has at most one accepted submission. -/
theorem Owned.accepted_unique (ho : Owned s) {n n' : Nat} {e e' : ExecutionID} {t : TaskID}
    (h : Accepted s n e t) (h' : Accepted s n' e' t) : e' = e := by
  have hreg := h.registered
  have hreg' := h'.registered
  obtain ⟨status, ⟨hid, -⟩, -⟩ := h
  obtain ⟨status', ⟨hid', -⟩, -⟩ := h'
  obtain rfl := ho.unique n n' e e' t hid hid' hreg hreg'
  rw [hid] at hid'
  cases hid'
  rfl

/-! ## Runs -/

variable {as : List Action}

theorem owned_run (h : Run.run step as (.initial registry workerIds capacity reporter) = some s) :
    Owned s := by
  have hrun := Run.invariant_run (I := fun s => Ledger s ∧ Owned s)
    (fun s a u ⟨hi, ho⟩ hstep => ?_) h
    ⟨ledger_initial registry workerIds capacity reporter, owned_initial⟩
  · exact hrun.2
  · have heffect := effect hstep hi.claims
    exact ⟨effect_ledger heffect hi, step_owned heffect hi ho⟩

/-- A handler is called only for a task whose submission is accepted. -/
theorem accepted_of_invoked
    (h : Run.run step as (.initial registry workerIds capacity reporter) = some s) {t : TaskID}
    (hmem : .runtime (.invoked t) ∈ observedIn as (.initial registry workerIds capacity reporter)) :
    ∃ n e, identity? s n = some (e, t) ∧ (course s.runtime n).isAccepted = true := by
  obtain ⟨bs, hruntime, hseen⟩ := runtime_run h
  have hcounted := LocalSystem.counted_run hruntime
  have hcalled : LocalSystem.Event.invoked t ∈
      LocalSystem.observedIn bs (.initial workerIds capacity reporter) := by
    rw [hseen]
    exact List.mem_filterMap.mpr ⟨_, hmem, rfl⟩
  have hcalls : 0 < LocalSystem.calls
      (LocalSystem.observedIn bs (.initial workerIds capacity reporter)) t :=
    List.count_pos_iff.mpr hcalled
  cases hx : stateOf s.runtime.taskManager t with
  | none =>
    have hearly : LocalSystem.Early s.runtime.taskManager t := by
      intro record hl
      rw [LocalSystem.stateOf_of_lookup hl] at hx
      cases hx
    have hnone := (hcounted.early t hearly).1
    omega
  | some x =>
    refine (owned_run h).accepted t x hx ?_
    rintro rfl
    have hearly : LocalSystem.Early s.runtime.taskManager t := by
      intro record hl
      rw [LocalSystem.stateOf_of_lookup hl] at hx
      exact .inl (Option.some.inj hx)
    have hnone := (hcounted.early t hearly).1
    omega

end WorkerService

end AgentRuntime
