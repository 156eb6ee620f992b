import AgentRuntime.Local.Executions
import AgentRuntime.Local.Submission
import AgentRuntime.Service.WorkerService

/-!
# One submission for each execution

The first request of an execution claims it in the ledger and submits it, and
every later one finds the claim. The ledger keeps its entries for ever, so this
holds after the task has completed as well.
-/
namespace AgentRuntime

namespace WorkerService

open LocalSystem (Course course Sound completion? leaves)

/-! ## The ledger -/

/-- The status that the ledger has for the execution of a claimer. -/
def Launch.stored (l : Launch) : Status :=
  match l.phase with
  | .answered status => status
  | _ => .OK

/-- Each entry of the ledger belongs to one request, and says what that request has stored. -/
structure Claims (executions : UnorderedMap ExecutionID ExecutionAdmission)
    (launches : UnorderedMap Nat Launch) : Prop where
  entry : ∀ e admission, executions.lookup e = some admission →
    ∃ n l, launches.lookup n = some l ∧ l.isClaimer = true ∧ l.executionId = e
  claimed : ∀ n l, launches.lookup n = some l → l.isClaimer = true →
    executions.lookup l.executionId = some ⟨l.spec.id, l.stored⟩
  unique : ∀ n n' l l', launches.lookup n = some l → launches.lookup n' = some l' →
    l.isClaimer = true → l'.isClaimer = true → l.executionId = l'.executionId → n = n'

theorem claims_initial : Claims ∅ ∅ where
  entry e admission h := by simp at h
  claimed n l h := by simp at h
  unique n n' l l' h := by simp at h

variable {executions executions' : UnorderedMap ExecutionID ExecutionAdmission}
  {launches : UnorderedMap Nat Launch} {n : Nat} {l l' : Launch}

/-- A request that claims nothing comes or goes on. -/
theorem Claims.other (h : Claims executions launches) (hl' : l'.isClaimer = false)
    (hold : ∀ l, launches.lookup n = some l → l.isClaimer = false) :
    Claims executions (launches.insert n l') where
  entry e admission he := by
    obtain ⟨m, l, hl, hclaimer, hid⟩ := h.entry e admission he
    refine ⟨m, l, ?_, hclaimer, hid⟩
    rw [UnorderedMap.lookup_insert_eq, if_neg]
    · exact hl
    · rintro rfl
      rw [hold l hl] at hclaimer
      cases hclaimer
  claimed m l hl hclaimer := by
    rw [UnorderedMap.lookup_insert_eq] at hl
    split at hl
    · cases hl
      rw [hl'] at hclaimer
      cases hclaimer
    · exact h.claimed m l hl hclaimer
  unique m m' l l'' hm hm' hc hc' he := by
    rw [UnorderedMap.lookup_insert_eq] at hm hm'
    split at hm
    · cases hm
      rw [hl'] at hc
      cases hc
    · split at hm'
      · cases hm'
        rw [hl'] at hc'
        cases hc'
      · exact h.unique m m' l l'' hm hm' hc hc' he

/-- A claimer goes on, and what it stores goes into its own entry. -/
theorem Claims.advance (h : Claims executions launches) (hl : launches.lookup n = some l)
    (hc : l.isClaimer = true) (hc' : l'.isClaimer = true) (hid : l'.executionId = l.executionId)
    (hspec : l'.spec = l.spec)
    (hexec : ∀ e, executions'.lookup e =
      if e = l.executionId then some ⟨l.spec.id, l'.stored⟩ else executions.lookup e) :
    Claims executions' (launches.insert n l') where
  entry e admission he := by
    by_cases hcase : e = l.executionId
    · exact ⟨n, l', by simp, hc', hid.trans hcase.symm⟩
    · rw [hexec, if_neg hcase] at he
      obtain ⟨m, lm, hm, hclaimer, hidm⟩ := h.entry e admission he
      refine ⟨m, lm, ?_, hclaimer, hidm⟩
      rw [UnorderedMap.lookup_insert_eq, if_neg]
      · exact hm
      · rintro rfl
        rw [hl] at hm
        cases hm
        exact hcase hidm.symm
  claimed m lm hm hclaimer := by
    rw [UnorderedMap.lookup_insert_eq] at hm
    split at hm
    · cases hm
      rw [hexec, hid, if_pos rfl, hspec]
    · rename_i hne
      rw [hexec, if_neg]
      · exact h.claimed m lm hm hclaimer
      · intro he
        exact hne (h.unique m n lm l hm hl hclaimer hc he)
  unique m m' lm lm' hm hm' hcm hcm' he := by
    rw [UnorderedMap.lookup_insert_eq] at hm hm'
    split at hm
    · rename_i heq
      cases hm
      split at hm'
      · rename_i heq'
        rw [heq, heq']
      · rw [heq]
        exact h.unique n m' l lm' hl hm' hc hcm' (hid ▸ he)
    · split at hm'
      · rename_i heq'
        cases hm'
        rw [heq']
        exact h.unique m n lm l hm hl hcm hc (he.trans hid)
      · exact h.unique m m' lm lm' hm hm' hcm hcm' he

/-- A request claims an execution that is not in the ledger. -/
theorem Claims.claim (h : Claims executions launches) (hl : launches.lookup n = some l)
    (hnot : l.isClaimer = false) (hfree : executions.lookup l.executionId = none)
    (hid : l'.executionId = l.executionId) (hspec : l'.spec = l.spec) (hstored : l'.stored = .OK)
    (hc' : l'.isClaimer = true)
    (hexec : ∀ e, executions'.lookup e =
      if e = l.executionId then some ⟨l.spec.id, .OK⟩ else executions.lookup e) :
    Claims executions' (launches.insert n l') where
  entry e admission he := by
    by_cases hcase : e = l.executionId
    · exact ⟨n, l', by simp, hc', hid.trans hcase.symm⟩
    · rw [hexec, if_neg hcase] at he
      obtain ⟨m, lm, hm, hclaimer, hidm⟩ := h.entry e admission he
      refine ⟨m, lm, ?_, hclaimer, hidm⟩
      rw [UnorderedMap.lookup_insert_eq, if_neg]
      · exact hm
      · rintro rfl
        rw [hl] at hm
        cases hm
        rw [hnot] at hclaimer
        cases hclaimer
  claimed m lm hm hclaimer := by
    rw [UnorderedMap.lookup_insert_eq] at hm
    split at hm
    · cases hm
      rw [hexec, hid, if_pos rfl, hspec, hstored]
    · rw [hexec, if_neg]
      · exact h.claimed m lm hm hclaimer
      · intro he
        have hentry := h.claimed m lm hm hclaimer
        rw [he, hfree] at hentry
        cases hentry
  unique m m' lm lm' hm hm' hcm hcm' he := by
    -- nobody else has claimed the execution
    have hfresh : ∀ m lm, launches.lookup m = some lm → lm.isClaimer = true →
        lm.executionId ≠ l.executionId := by
      intro m lm hm hcm he
      have hentry := h.claimed m lm hm hcm
      rw [he, hfree] at hentry
      cases hentry
    rw [UnorderedMap.lookup_insert_eq] at hm hm'
    split at hm
    · rename_i heq
      cases hm
      split at hm'
      · rename_i heq'
        rw [heq, heq']
      · exact absurd (he.symm.trans hid) (hfresh m' lm' hm' hcm')
    · split at hm'
      · cases hm'
        exact absurd (he.trans hid) (hfresh m lm hm hcm)
      · exact h.unique m m' lm lm' hm hm' hcm hcm' he

/-! ## What each step does -/

/-- What a step does to the requests, the ledger and the runtime. -/
inductive Effect (s : State) : Action → State → Prop where
  | begin {n : Nat} {task} {l : Launch} (hnew : s.launches.lookup n = none)
      (hphase : l.phase = .claiming) :
      Effect s (.launchBegin n task) (s.setLaunch n l)
  | undecoded (n : Nat) (task : TaskDescriptor) (undecoded) :
      Effect s (.launchBegin n task) { s with undecoded := undecoded }
  | reject {n : Nat} {l : Launch} {existing} (hl : s.launches.lookup n = some l)
      (hphase : l.phase = .claiming)
      (hentry : s.executions.lookup l.executionId = some existing)
      (hother : existing.taskId ≠ l.spec.id) :
      Effect s (.launchClaim n) (s.setLaunch n { l with phase := .rejected otherTask })
  | replay {n : Nat} {l : Launch} {existing} (hl : s.launches.lookup n = some l)
      (hphase : l.phase = .claiming)
      (hentry : s.executions.lookup l.executionId = some existing)
      (hsame : existing.taskId = l.spec.id) :
      Effect s (.launchClaim n)
        (s.setLaunch n { l with phase := .replayed existing.admissionStatus })
  | claim {n : Nat} {l : Launch} (hl : s.launches.lookup n = some l) (hphase : l.phase = .claiming)
      (hentry : s.executions.lookup l.executionId = none) :
      Effect s (.launchClaim n) ({ s with
        executions := s.executions.emplace l.executionId ⟨l.spec.id, .OK⟩
        taskExecutions := s.taskExecutions.insert l.spec.id l.executionId }.setLaunch n
          { l with phase := .claimed })
  | submit {n : Nat} {l : Launch} {runtime} (hl : s.launches.lookup n = some l)
      (hphase : l.phase = .claimed)
      (hstep : LocalSystem.step s.runtime (.call (.submitBegin n l.spec l.handler)) =
        some runtime) :
      Effect s (.launchSubmit n)
        ({ s with runtime := runtime }.setLaunch n { l with phase := .submitting })
  | store {n : Nat} {l : Launch} {status existing} (hl : s.launches.lookup n = some l)
      (hphase : l.phase = .submitting) (hstatus : s.runtime.submits.lookup n = some status)
      (hentry : s.executions.lookup l.executionId = some existing) :
      Effect s (.launchStore n) ({ s with
        executions := s.executions.insert l.executionId
          { existing with admissionStatus := status } }.setLaunch n
            { l with phase := .answered status })
  | cancel {a} (n : Nat) (phase : CancelPhase) (ha : ∀ b, a ≠ .runtime b)
      (hlaunch : ∀ m, a ≠ .launchSubmit m)
      (hcallback : ∀ r, a ≠ .callback r) : Effect s a (s.setCancel n phase)
  | cancelRuntime {n : Nat} {t runtime} (phase)
      (hstep : LocalSystem.step s.runtime (.call (.cancelBegin n t)) = some runtime) :
      Effect s (.cancelRuntime n) ({ s with runtime := runtime }.setCancel n phase)
  | unreported {r completion} (hcompletion : completion? s.runtime r = some completion)
      (hnew : r ∉ s.called) (hentry : s.taskExecutions.lookup completion.taskId = none) :
      Effect s (.callback r) { s with called := r :: s.called }
  | report {r completion e} (hcompletion : completion? s.runtime r = some completion)
      (hnew : r ∉ s.called) (hentry : s.taskExecutions.lookup completion.taskId = some e) :
      Effect s (.callback r) { s with called := r :: s.called, reporting := some r }
  | callbackReturn (r) : Effect s (.callbackReturn r) { s with reporting := none }
  | runtime {a runtime} (hcall : isRequestCall a = false) (hstays : leaves s.runtime a = none)
      (hstep : LocalSystem.step s.runtime a = some runtime) :
      Effect s (.runtime a) { s with runtime := runtime }
  | leave {a r runtime} (hcall : isRequestCall a = false) (hleaves : leaves s.runtime a = some r)
      (hcalled : r ∈ s.called) (hstep : LocalSystem.step s.runtime a = some runtime) :
      Effect s (.runtime a)
        { s with runtime := runtime, called := s.called.filter (fun r' => r' ≠ r) }

variable {s u : State} {a : Action}

theorem effect (h : step s a = some u) (hc : Claims s.executions s.launches) : Effect s a u := by
  cases a with
  | launchBegin n task =>
    simp only [step] at h
    split at h
    · rename_i hnew _
      cases h
      simp only [launchBegin]
      split
      · exact .undecoded _ _ _
      · exact .begin hnew rfl
    · cases h
  | launchClaim n =>
    simp only [step] at h
    split at h
    · rename_i l hl hfree
      split at h
      · rename_i hphase
        cases h
        simp only [launchClaim]
        split
        · rename_i existing hentry
          split
          · rename_i hother
            exact .reject hl hphase hentry hother
          · rename_i hsame
            exact .replay hl hphase hentry (by simpa using hsame)
        · rename_i hentry
          exact .claim hl hphase hentry
      · cases h
    · cases h
  | launchSubmit n =>
    simp only [step] at h
    split at h
    · rename_i l hl
      split at h
      · rename_i hphase
        obtain ⟨runtime, hstep, rfl⟩ := Option.map_eq_some_iff.mp h
        exact .submit hl hphase hstep
      · cases h
    · cases h
  | launchStore n =>
    simp only [step] at h
    split at h
    · rename_i l status hl hstatus hfree
      split at h
      · rename_i hphase
        have hentry := hc.claimed n l hl (by simp [Launch.isClaimer, hphase])
        cases h
        simp only [launchStore, hentry]
        exact .store hl hphase hstatus hentry
      · cases h
    · cases h
  | cancelBegin n taskId executionId =>
    simp only [step] at h
    split at h
    · cases h
      exact .cancel _ _ (by simp) (by simp) (by simp)
    · cases h
  | cancelCheck n =>
    simp only [step] at h
    split at h
    · cases h
      exact .cancel _ _ (by simp) (by simp) (by simp)
    · cases h
  | cancelRuntime n =>
    simp only [step] at h
    split at h
    · obtain ⟨runtime, hstep, rfl⟩ := Option.map_eq_some_iff.mp h
      exact .cancelRuntime _ hstep
    · cases h
  | cancelReply n =>
    simp only [step] at h
    split at h
    · cases h
      exact .cancel _ _ (by simp) (by simp) (by simp)
    · cases h
  | callback r =>
    simp only [step] at h
    split at h
    · rename_i completion hcompletion hfree
      split at h
      · cases h
      · rename_i hnew
        cases h
        simp only [callback]
        split
        · rename_i hentry
          exact .unreported hcompletion hnew hentry
        · rename_i e hentry
          exact .report hcompletion hnew hentry
    · cases h
  | callbackReturn r =>
    simp only [step] at h
    split at h
    · cases h
      exact .callbackReturn r
    · cases h
  | runtime a =>
    simp only [step, runtimeStep] at h
    split at h
    · cases h
    · rename_i hcall
      have hno : isRequestCall a = false := by simpa using hcall
      split at h
      · rename_i hstays
        obtain ⟨runtime, hstep, rfl⟩ := Option.map_eq_some_iff.mp h
        exact .runtime hno hstays hstep
      · rename_i r hleaves
        split at h
        · rename_i hcalled
          obtain ⟨runtime, hstep, rfl⟩ := Option.map_eq_some_iff.mp h
          exact .leave hno hleaves hcalled.1 hstep
        · cases h

theorem events_eq_nil (ha : ∀ b, a ≠ .runtime b) (hlaunch : ∀ m, a ≠ .launchSubmit m)
    (hcallback : ∀ r, a ≠ .callback r) : events s a = [] := by
  cases a with
  | runtime b => exact absurd rfl (ha b)
  | launchSubmit m => exact absurd rfl (hlaunch m)
  | callback r => exact absurd rfl (hcallback r)
  | _ => rfl

/-- A step of the service is a step of the runtime, or does not concern it. -/
theorem step_runtime (h : Effect s a u) :
    (u.runtime = s.runtime ∧ (events s a).filterMap Event.runtime? = []) ∨
    ∃ b, LocalSystem.step s.runtime b = some u.runtime ∧
      (events s a).filterMap Event.runtime? = LocalSystem.events s.runtime b ∧
      (a = .runtime b ∨ isRequestCall b = true) := by
  have pick : ∀ evs : List LocalSystem.Event,
      (evs.map Event.runtime).filterMap Event.runtime? = evs := by
    intro evs
    induction evs with
    | nil => rfl
    | cons ev evs ih => simp [Event.runtime?, ih]
  cases h with
  | begin | undecoded | reject | replay | claim | store | callbackReturn => exact .inl ⟨rfl, rfl⟩
  | cancel n phase ha hlaunch hcallback =>
    exact .inl ⟨rfl, by rw [events_eq_nil ha hlaunch hcallback]; rfl⟩
  | unreported hcompletion hnew hentry =>
    exact .inl ⟨rfl, by simp [events, hcompletion, hentry]⟩
  | report hcompletion hnew hentry =>
    exact .inl ⟨rfl, by simp [events, hcompletion, hentry, Event.runtime?]⟩
  | submit hl hphase hstep =>
    exact .inr ⟨_, hstep, by simp [events, hl, Event.runtime?, LocalSystem.events], .inr rfl⟩
  | cancelRuntime phase hstep => exact .inr ⟨_, hstep, rfl, .inr rfl⟩
  | runtime hcall hstays hstep => exact .inr ⟨_, hstep, pick _, .inl rfl⟩
  | leave hcall hleaves hcalled hstep => exact .inr ⟨_, hstep, pick _, .inl rfl⟩

theorem step_claims (h : Effect s a u) (hc : Claims s.executions s.launches) :
    Claims u.executions u.launches := by
  have notClaimer : ∀ {n : Nat} {l : Launch}, s.launches.lookup n = some l →
      l.phase = .claiming → ∀ l', s.launches.lookup n = some l' → l'.isClaimer = false := by
    intro n l hl hphase l' hl'
    rw [hl] at hl'
    cases hl'
    simp [Launch.isClaimer, hphase]
  cases h with
  | begin hnew hphase =>
    exact hc.other (by simp [Launch.isClaimer, hphase]) (fun l hl => by rw [hnew] at hl; cases hl)
  | reject hl hphase hentry hother => exact hc.other rfl (notClaimer hl hphase)
  | replay hl hphase hentry hsame => exact hc.other rfl (notClaimer hl hphase)
  | claim hl hphase hentry =>
    refine hc.claim hl (notClaimer hl hphase _ hl) hentry rfl rfl rfl rfl (fun e => ?_)
    simp only [State.setLaunch, UnorderedMap.emplace_of_none _ hentry,
      UnorderedMap.lookup_insert_eq]
  | @submit n l runtime hl hphase hstep =>
    have hclaimer : l.isClaimer = true := by simp [Launch.isClaimer, hphase]
    refine hc.advance hl hclaimer rfl rfl rfl (fun e => ?_)
    split
    · rename_i he
      rw [he]
      have hentry := hc.claimed n l hl hclaimer
      simpa [State.setLaunch, Launch.stored, hphase] using hentry
    · rfl
  | @store n l status existing hl hphase hstatus hentry =>
    have hclaimer : l.isClaimer = true := by simp [Launch.isClaimer, hphase]
    have hold := hc.claimed n l hl hclaimer
    rw [hentry] at hold
    obtain rfl : existing = _ := Option.some.inj hold
    refine hc.advance hl hclaimer rfl rfl rfl (fun e => ?_)
    simp only [State.setLaunch, UnorderedMap.lookup_insert_eq, Launch.stored]
  | undecoded | cancel | cancelRuntime | unreported | report | callbackReturn | runtime | leave =>
    exact hc

/-! ## The requests and their calls of Submit -/

/-- The call is one of the given task. -/
def Course.isOf (spec : TaskSpec) : Course → Prop
  | .outside => False
  | .checked spec' => spec' = spec
  | .registered t | .marked t => t = spec.id
  | .returned _ => True

/-- How far the call of `Submit` of a request is. -/
def Linked (call : Option Launch) (c : Course) : Prop :=
  match call with
  | none => c = .outside
  | some l =>
    match l.phase with
    | .claiming | .claimed | .rejected _ | .replayed _ => c = .outside
    | .submitting => Course.isOf l.spec c
    | .answered status => c = .returned status

theorem linked_of_submitting {l : Launch} {c : Course} (hphase : l.phase = .submitting)
    (hc : Course.isOf l.spec c) : Linked (some l) c := by
  simp only [Linked, hphase]
  exact hc

/-- A call that is inside `Submit` is that of a submitting request. -/
theorem Linked.inside {call : Option Launch} {c : Course} (h : Linked call c)
    (hc : c.isInside = true) : ∃ l, call = some l ∧ l.phase = .submitting ∧
      Course.isOf l.spec c := by
  cases call with
  | none =>
    rw [show c = .outside from h] at hc
    cases hc
  | some l =>
    have hout : c ≠ .outside := by
      rintro rfl
      cases hc
    have hreturned : ∀ status, c ≠ .returned status := by
      rintro status rfl
      cases hc
    refine ⟨l, rfl, ?_⟩
    simp only [Linked] at h
    split at h
    · exact absurd h hout
    · exact absurd h hout
    · exact absurd h hout
    · exact absurd h hout
    · rename_i hphase
      exact ⟨hphase, h⟩
    · exact absurd h (hreturned _)

/-- What is known of every reachable state of the service. -/
structure Ledger (s : State) : Prop where
  sound : Sound s.runtime
  claims : Claims s.executions s.launches
  linked : ∀ n, Linked (s.launches.lookup n) (course s.runtime n)

theorem ledger_initial (registry : HandlerRegistry) (workerIds : List WorkerID)
    (capacity : ResourceSet) (callback : Bool) :
    Ledger (.initial registry workerIds capacity callback) where
  sound := LocalSystem.sound_initial workerIds capacity callback
  claims := claims_initial
  linked _ := rfl

/-- A step of the runtime in which the call does not begin. -/
theorem linked_runtime {b : LocalSystem.Action} {runtime : LocalSystem.State} {n : Nat}
    (hb : ∀ spec handler, b ≠ .call (.submitBegin n spec handler))
    (hstep : LocalSystem.step s.runtime b = some runtime) (hs : Sound s.runtime)
    {call : Option Launch} (h : Linked call (course s.runtime n)) :
    Linked call (course runtime n) := by
  have hcourse := (LocalSystem.step_course hstep hs.submitting).2 n
  generalize course s.runtime n = c at hcourse h
  generalize course runtime n = c' at hcourse
  cases hcourse with
  | stay => exact h
  | begin ha => exact absurd ha (hb _ _)
  | refuseBegin ha => exact absurd ha (hb _ _)
  | register hnew =>
    obtain ⟨l, rfl, hphase, hof⟩ := h.inside rfl
    exact linked_of_submitting hphase (congrArg TaskSpec.id hof)
  | mark =>
    obtain ⟨l, rfl, hphase, hof⟩ := h.inside rfl
    exact linked_of_submitting hphase hof
  | push =>
    obtain ⟨l, rfl, hphase, -⟩ := h.inside rfl
    exact linked_of_submitting hphase trivial
  | refuse _ _ _ hc =>
    obtain ⟨l, rfl, hphase, -⟩ := h.inside (LocalSystem.isInside_of_isUndecided hc)
    exact linked_of_submitting hphase trivial

/-- The call of `Submit` of a request begins. -/
theorem linked_submit {runtime : LocalSystem.State} {n : Nat} {l l' : Launch}
    (hstep : LocalSystem.step s.runtime (.call (.submitBegin n l.spec l.handler)) = some runtime)
    (hs : Sound s.runtime) (hout : course s.runtime n = .outside) (hphase : l'.phase = .submitting)
    (hspec : l'.spec = l.spec) : Linked (some l') (course runtime n) := by
  have hcourse := (LocalSystem.step_course hstep hs.submitting).2 n
  have hbegun : course runtime n ≠ .outside := LocalSystem.course_submitBegin hstep
  rw [hout] at hcourse
  apply linked_of_submitting hphase
  rw [hspec]
  generalize course runtime n = c' at hcourse hbegun
  cases hcourse with
  | stay => exact absurd rfl hbegun
  | begin ha =>
    cases ha
    rfl
  | refuseBegin ha => trivial
  | refuse _ _ _ hc => cases hc

theorem step_sound (h : Effect s a u) (hs : Sound s.runtime) : Sound u.runtime := by
  obtain ⟨he, -⟩ | ⟨b, hstep, -⟩ := step_runtime h
  · rw [he]
    exact hs
  · exact LocalSystem.step_sound hstep hs

/-- A request that has not begun its call goes on without it. -/
theorem linked_outside {c : Course} {l l' : Launch} (h : Linked (some l) c)
    (hl : l.phase = .claiming) (hl' : l'.phase ≠ .submitting ∧ ∀ status, l'.phase ≠ .answered status) :
    Linked (some l') c := by
  simp only [Linked, hl] at h ⊢
  cases hphase : l'.phase with
  | submitting => exact absurd hphase hl'.1
  | answered status => exact absurd hphase (hl'.2 status)
  | claiming | claimed | rejected | replayed => exact h

theorem effect_ledger (h : Effect s a u) (hi : Ledger s) : Ledger u := by
  refine ⟨step_sound h hi.sound, step_claims h hi.claims, ?_⟩
  -- a request changes and the runtime does not
  have setLaunch : ∀ {n : Nat} {l : Launch}, Linked (some l) (course s.runtime n) →
      ∀ m, Linked ((s.launches.insert n l).lookup m) (course s.runtime m) := by
    intro n l hl m
    rw [UnorderedMap.lookup_insert_eq]
    split
    · rename_i he
      rw [he]
      exact hl
    · exact hi.linked m
  have linkedOf : ∀ {n : Nat} {l : Launch}, s.launches.lookup n = some l →
      Linked (some l) (course s.runtime n) := by
    intro n l hl
    have hlinked := hi.linked n
    rwa [hl] at hlinked
  cases h with
  | @begin n task l hnew hphase =>
    have hout := hi.linked n
    rw [hnew] at hout
    refine setLaunch ?_
    simp only [Linked, hphase]
    exact hout
  | reject hl hphase hentry hother =>
    exact setLaunch (linked_outside (linkedOf hl) hphase ⟨by simp, by simp⟩)
  | replay hl hphase hentry hsame =>
    exact setLaunch (linked_outside (linkedOf hl) hphase ⟨by simp, by simp⟩)
  | claim hl hphase hentry =>
    exact setLaunch (linked_outside (linkedOf hl) hphase ⟨by simp, by simp⟩)
  | @submit n l runtime hl hphase hstep =>
    intro m
    simp only [State.setLaunch, UnorderedMap.lookup_insert_eq]
    split
    · rename_i he
      subst he
      have hout : course s.runtime m = .outside := by
        have hlinked := linkedOf hl
        simpa only [Linked, hphase] using hlinked
      exact linked_submit hstep hi.sound hout rfl rfl
    · rename_i hne
      refine linked_runtime ?_ hstep hi.sound (hi.linked m)
      intro spec handler he
      cases he
      exact hne rfl
  | @store n l status existing hl hphase hstatus hentry =>
    refine setLaunch ?_
    simp only [Linked, course, hstatus]
  | cancelRuntime phase hstep =>
    exact fun m => linked_runtime (by simp) hstep hi.sound (hi.linked m)
  | @runtime b runtime hcall hstays hstep =>
    refine fun m => linked_runtime ?_ hstep hi.sound (hi.linked m)
    rintro spec handler rfl
    cases hcall
  | @leave b r runtime hcall hleaves hcalled hstep =>
    refine fun m => linked_runtime ?_ hstep hi.sound (hi.linked m)
    rintro spec handler rfl
    cases hcall
  | undecoded | cancel | unreported | report | callbackReturn => exact hi.linked

/-! ## Each execution is submitted once -/

/-- How often `Runtime::Submit` has been called for an execution. -/
def submissions (seen : List Event) (e : ExecutionID) : Nat := seen.count (.submitted e)

/-- How often the handler of a task has been called. -/
def invocations (seen : List Event) (t : TaskID) : Nat := seen.count (.runtime (.invoked t))

structure Crossed (seen : List Event) (s : State) : Prop where
  once : ∀ e, submissions seen e ≤ 1
  waiting : ∀ n l, s.launches.lookup n = some l → l.phase = .claimed →
    submissions seen l.executionId = 0
  unclaimed : ∀ e, s.executions.lookup e = none → submissions seen e = 0

variable {seen : List Event}

/-- A step that submits nothing and claims at most what has not been submitted. -/
theorem Crossed.keep (h : Crossed seen s) (hevs : ∀ e, submissions (events s a) e = 0)
    (hlaunches : ∀ n l, u.launches.lookup n = some l → l.phase = .claimed →
      s.launches.lookup n = some l ∨ s.executions.lookup l.executionId = none)
    (hexec : ∀ e, u.executions.lookup e = none → s.executions.lookup e = none) :
    Crossed (seen ++ events s a) u := by
  have hcount : ∀ e, submissions (seen ++ events s a) e = submissions seen e := by
    intro e
    rw [submissions, List.count_append]
    have hnone := hevs e
    rw [submissions] at hnone ⊢
    omega
  refine ⟨fun e => ?_, fun n l hl hphase => ?_, fun e he => ?_⟩
  · rw [hcount]
    exact h.once e
  · rw [hcount]
    obtain hold | hnew := hlaunches n l hl hphase
    · exact h.waiting n l hold hphase
    · exact h.unclaimed _ hnew
  · rw [hcount]
    exact h.unclaimed e (hexec e he)

theorem submissions_runtime (evs : List LocalSystem.Event) (e : ExecutionID) :
    submissions (evs.map Event.runtime) e = 0 := by
  rw [submissions, List.count_eq_zero]
  simp

theorem step_crossed (h : Effect s a u) (hi : Ledger s) (hc : Crossed seen s) :
    Crossed (seen ++ events s a) u := by
  -- the changed request is not one that is about to submit
  have setLaunch : ∀ {n : Nat} {l : Launch}, l.phase ≠ .claimed → ∀ m l',
      (s.launches.insert n l).lookup m = some l' → l'.phase = .claimed →
        s.launches.lookup m = some l' ∨ s.executions.lookup l'.executionId = none := by
    intro n l hphase m l' hl' hclaimed
    rw [UnorderedMap.lookup_insert_eq] at hl'
    split at hl'
    · cases hl'
      exact absurd hclaimed hphase
    · exact .inl hl'
  cases h with
  | begin hnew hphase =>
    exact hc.keep (fun _ => rfl) (setLaunch (by simp [hphase])) (fun _ he => he)
  | reject hl hphase hentry hother =>
    exact hc.keep (fun _ => rfl) (setLaunch (by simp)) (fun _ he => he)
  | replay hl hphase hentry hsame =>
    exact hc.keep (fun _ => rfl) (setLaunch (by simp)) (fun _ he => he)
  | @claim n l hl hphase hentry =>
    refine hc.keep (fun _ => rfl) (fun m l' hl' hclaimed => ?_) (fun e he => ?_)
    · simp only [State.setLaunch, UnorderedMap.lookup_insert_eq] at hl'
      split at hl'
      · cases hl'
        exact .inr hentry
      · exact .inl hl'
    · simp only [State.setLaunch, UnorderedMap.emplace_of_none _ hentry,
        UnorderedMap.lookup_insert_eq] at he
      split at he
      · cases he
      · exact he
  | @store n l status existing hl hphase hstatus hentry =>
    refine hc.keep (fun _ => rfl) (setLaunch (by simp)) (fun e he => ?_)
    simp only [State.setLaunch, UnorderedMap.lookup_insert_eq] at he
    split at he
    · cases he
    · exact he
  | @submit n l runtime hl hphase hstep =>
    have hzero := hc.waiting n l hl hphase
    have hclaimer : l.isClaimer = true := by simp [Launch.isClaimer, hphase]
    have hcount : ∀ e, submissions (seen ++ events s (.launchSubmit n)) e =
        submissions seen e + if e = l.executionId then 1 else 0 := by
      intro e
      simp only [submissions, List.count_append, events, hl, List.count_singleton]
      by_cases he : e = l.executionId <;> simp [he, Ne.symm]
    refine ⟨fun e => ?_, fun m l' hl' hclaimed => ?_, fun e he => ?_⟩
    · rw [hcount]
      have honce := hc.once e
      split
      · rename_i he
        rw [he, hzero]
      · omega
    · simp only [State.setLaunch, UnorderedMap.lookup_insert_eq] at hl'
      split at hl'
      · cases hl'
        cases hclaimed
      · rename_i hne
        rw [hcount, hc.waiting m l' hl' hclaimed, if_neg]
        intro he
        exact hne (hi.claims.unique m n l' l hl' hl (by simp [Launch.isClaimer, hclaimed])
          hclaimer he)
    · rw [hcount, hc.unclaimed e he, if_neg]
      rintro rfl
      have hentry := hi.claims.claimed n l hl hclaimer
      rw [show s.executions.lookup _ = none from he] at hentry
      cases hentry
  | undecoded | callbackReturn => exact hc.keep (fun _ => rfl) (fun _ _ hl _ => .inl hl) (fun _ he => he)
  | cancelRuntime => exact hc.keep (fun _ => rfl) (fun _ _ hl _ => .inl hl) (fun _ he => he)
  | cancel n phase ha hlaunch hcallback =>
    refine hc.keep (fun e => ?_) (fun _ _ hl _ => .inl hl) (fun _ he => he)
    rw [submissions, events_eq_nil ha hlaunch hcallback]
    rfl
  | unreported hcompletion hnew hentry =>
    refine hc.keep (fun e => ?_) (fun _ _ hl _ => .inl hl) (fun _ he => he)
    simp [submissions, events, hcompletion, hentry]
  | report hcompletion hnew hentry =>
    refine hc.keep (fun e => ?_) (fun _ _ hl _ => .inl hl) (fun _ he => he)
    simp [submissions, events, hcompletion, hentry]
  | runtime hcall hstays hstep =>
    exact hc.keep (submissions_runtime _) (fun _ _ hl _ => .inl hl) (fun _ he => he)
  | leave hcall hleaves hcalled hstep =>
    exact hc.keep (submissions_runtime _) (fun _ _ hl _ => .inl hl) (fun _ he => he)

/-- The task of an execution in the ledger never changes. -/
theorem step_bound (h : Effect s a u) {e : ExecutionID} {admission : ExecutionAdmission}
    (he : s.executions.lookup e = some admission) :
    ∃ admission', u.executions.lookup e = some admission' ∧
      admission'.taskId = admission.taskId := by
  cases h with
  | claim hl hphase hentry =>
    exact ⟨admission, UnorderedMap.lookup_emplace_of_some he, rfl⟩
  | @store n l status existing hl hphase hstatus hentry =>
    simp only [State.setLaunch, UnorderedMap.lookup_insert_eq]
    split
    · rename_i hid
      rw [hid, hentry] at he
      cases he
      exact ⟨_, rfl, rfl⟩
    · exact ⟨admission, he, rfl⟩
  | begin | undecoded | reject | replay | submit | cancel | cancelRuntime | unreported | report
  | callbackReturn | runtime | leave => exact ⟨admission, he, rfl⟩

/-! ## The result -/

variable {registry : HandlerRegistry} {workerIds : List WorkerID} {capacity : ResourceSet}
  {reporter : Bool} {as : List Action}

theorem step_ledger (h : step s a = some u) (hi : Ledger s) : Ledger u :=
  effect_ledger (effect h hi.claims) hi

theorem ledger_run (h : Run.run step as (.initial registry workerIds capacity reporter) = some s) :
    Ledger s :=
  Run.invariant_run (fun _ _ _ hi hstep => step_ledger hstep hi) h
    (ledger_initial registry workerIds capacity reporter)

theorem crossed_initial : Crossed [] (.initial registry workerIds capacity reporter) where
  once _ := Nat.zero_le 1
  waiting _ _ hl := by simp [State.initial] at hl
  unclaimed _ _ := rfl

theorem crossed_run (h : Run.run step as (.initial registry workerIds capacity reporter) = some s) :
    Crossed (observedIn as (.initial registry workerIds capacity reporter)) s := by
  have hrun := Run.invariant_observed (I := fun seen s => Ledger s ∧ Crossed seen s)
    (fun seen s a u hs _ hstep => ⟨step_ledger hstep hs.1,
      step_crossed (effect hstep hs.1.claims) hs.1 hs.2⟩)
    (Run.along_true as _) h
    ⟨ledger_initial registry workerIds capacity reporter, crossed_initial⟩
  exact hrun.2

/-- A run of the service is a run of its runtime. -/
theorem runtime_run (h : Run.run step as (.initial registry workerIds capacity reporter) = some s) :
    ∃ bs, Run.run LocalSystem.step bs (.initial workerIds capacity reporter) = some s.runtime ∧
      LocalSystem.observedIn bs (.initial workerIds capacity reporter) =
        (observedIn as (.initial registry workerIds capacity reporter)).filterMap
          Event.runtime? := by
  refine Run.simulation (f := State.runtime) (I := Ledger)
    (fun _ _ _ hi hstep => step_ledger hstep hi) ?_ h
    (ledger_initial registry workerIds capacity reporter)
  intro s a u hi hstep
  obtain ⟨he, hseen⟩ | ⟨b, hb, hseen, -⟩ := step_runtime (effect hstep hi.claims)
  · exact ⟨[], by rw [he]; rfl, hseen.symm⟩
  · refine ⟨[b], ?_, ?_⟩
    · rw [Run.run_cons, hb]
      rfl
    · rw [Run.observed_cons hb, hseen]
      exact List.append_nil _

theorem invocations_eq (seen : List Event) (t : TaskID) :
    invocations seen t = LocalSystem.calls (seen.filterMap Event.runtime?) t := by
  induction seen with
  | nil => rfl
  | cons ev seen ih =>
    simp only [invocations, LocalSystem.calls] at ih ⊢
    cases ev with
    | submitted e =>
      rw [List.count_cons_of_ne (by simp), ih]
      rfl
    | reported t' e =>
      rw [List.count_cons_of_ne (by simp), ih]
      rfl
    | runtime ev =>
      rw [List.filterMap_cons_some (show Event.runtime? (.runtime ev) = some ev from rfl),
        List.count_cons, List.count_cons, ih]
      simp

/-- However often a request is delivered, its execution is submitted to the runtime at most once, the
execution stays bound to its task, and the handler of a task is called at most once. -/
theorem executions_submitted_once
    (h : Run.run step as (.initial registry workerIds capacity reporter) = some s) :
    (∀ e, submissions (observedIn as (.initial registry workerIds capacity reporter)) e ≤ 1) ∧
    (∀ bs u, Run.run step bs s = some u → ∀ e admission, s.executions.lookup e = some admission →
      ∃ admission', u.executions.lookup e = some admission' ∧
        admission'.taskId = admission.taskId) ∧
    (∀ t, invocations (observedIn as (.initial registry workerIds capacity reporter)) t ≤ 1) := by
  refine ⟨(crossed_run h).once, ?_, ?_⟩
  · intro bs u hrun e admission he
    have hbound := Run.invariant_run (I := fun u => Ledger u ∧ ∃ admission',
        u.executions.lookup e = some admission' ∧ admission'.taskId = admission.taskId)
      (fun v b v' hv hstep => ?_) hrun ⟨ledger_run h, admission, he, rfl⟩
    · exact hbound.2
    · obtain ⟨hi, admission', he', htask⟩ := hv
      obtain ⟨admission'', he'', htask'⟩ := step_bound (effect hstep hi.claims) he'
      exact ⟨step_ledger hstep hi, admission'', he'', htask'.trans htask⟩
  · intro t
    obtain ⟨bs, hruntime, hseen⟩ := runtime_run h
    rw [invocations_eq, ← hseen]
    exact ((LocalSystem.counted_run hruntime).bounds (LocalSystem.inv_run hruntime) t).1

namespace Sample

/-- A duplicate arrives after the task has completed, and another task under its execution. -/
def redelivered : List Action :=
  start ++ claim 1 1 1 ++ submit 1 none ++ [.runtime (.loop .wait)] ++
    (LocalSystem.Sample.schedule (.ofByte 1)).map .runtime ++
    (LocalSystem.Sample.execute.take 5).map .runtime ++ claim 2 1 1 ++ claim 3 2 1

end Sample

theorem executions_submitted_once_redelivered :
    submissions (observedIn Sample.redelivered Sample.worker) (.ofByte 1) = 1 ∧
      invocations (observedIn Sample.redelivered Sample.worker) (LocalSystem.Sample.task 1) = 1 := by
  have hrun : Run.run step Sample.redelivered Sample.worker =
      some (Run.stateAfter step Sample.redelivered Sample.worker) :=
    Run.run_stateAfter (by decide)
  obtain ⟨hsubmissions, -, hinvocations⟩ := executions_submitted_once hrun
  exact ⟨(hsubmissions _).antisymm (by decide), (hinvocations _).antisymm (by decide)⟩

end WorkerService

end AgentRuntime
