import AgentRuntime.Local.TaskHistory

/-!
# The course of a Submit call

A `Submit` call is followed by its key, from its checks to its return, and what
one step of the runtime does to it is said once for all steps.
-/
namespace AgentRuntime

namespace LocalSystem

/-- How far the `Submit` call with a given key is. -/
inductive Course where
  /-- Not begun. -/
  | outside
  | checked (spec : TaskSpec)
  | registered (t : TaskID)
  | marked (t : TaskID)
  | returned (status : Status)

/-- Begun and not returned. -/
def Course.isInside : Course → Bool
  | .checked _ | .registered _ | .marked _ => true
  | .outside | .returned _ => false

/-- Begun, and an error can still be returned. -/
def Course.isUndecided : Course → Bool
  | .checked _ | .registered _ => true
  | .outside | .marked _ | .returned _ => false

/-- The record of the task was made by this call, unless the call has failed since. -/
def Course.isRegistered : Course → Bool
  | .registered _ | .marked _ => true
  | .returned status => status.ok
  | .outside | .checked _ => false

/-- The call has returned `OK`, or will. -/
def Course.isAccepted : Course → Bool
  | .marked _ => true
  | .returned status => status.ok
  | .outside | .checked _ | .registered _ => false

/-- The call inside `Scheduler::Enqueue` with `mu_` taken. -/
def Holder.enqueue? : Option Holder → Option (Nat × Course)
  | some (.enqueueMark k t) => some (k, .registered t)
  | some (.enqueuePush k t) => some (k, .marked t)
  | _ => none

/-- The call that has begun and not returned. -/
def submitting? (lifecycle : Option LifecycleHolder) (holder : Option Holder) :
    Option (Nat × Course) :=
  match lifecycle with
  | some (.registering k spec _) => some (k, .checked spec)
  | some (.enqueuing k t) => some (k, .registered t)
  | some .inEnqueue => Holder.enqueue? holder
  | _ => none

def State.submitting? (s : State) : Option (Nat × Course) :=
  LocalSystem.submitting? s.lifecycle s.holder

def course (s : State) (k : Nat) : Course :=
  match s.submits.lookup k with
  | some status => .returned status
  | none =>
    match s.submitting? with
    | some (k', c) => if k' = k then c else .outside
    | none => .outside

/-- A section in which `Submit` is going to return an error, by the checks it makes there. -/
def refuses (s : State) : CallAction → Bool
  | .submitBegin _ spec handler => !(submitChecks s spec handler).ok
  | .submitRegister =>
    match s.lifecycle with
    | some (.registering _ spec handler) => !(s.taskManager.register spec handler).1.ok
    | _ => false
  | .enqueueBegin => !s.started || s.stopping
  | .enqueueMark =>
    match s.holder with
    | some (.enqueueMark _ t) => !(s.taskManager.markQueued t).1.ok
    | _ => false
  | _ => false

def CallAction.isSubmitBegin : CallAction → Bool
  | .submitBegin _ _ _ => true
  | _ => false

/-- One step of a call along its course. -/
inductive CourseStep (s : State) (a : Action) (u : State) (k : Nat) : Course → Course → Prop where
  | stay (c) : CourseStep s a u k c c
  | begin {spec handler} (ha : a = .call (.submitBegin k spec handler)) :
      CourseStep s a u k .outside (.checked spec)
  | refuseBegin {spec handler status} (ha : a = .call (.submitBegin k spec handler))
      (hno : status.ok = false) (hrefuses : refuses s (.submitBegin k spec handler) = true) :
      CourseStep s a u k .outside (.returned status)
  | register {spec} (hinside : s.submitting? = some (k, .checked spec))
      (hnew : stateOf s.taskManager spec.id = none)
      (hmade : stateOf u.taskManager spec.id = some .pending) (ha : a = .call .submitRegister)
      (hpasses : refuses s .submitRegister = false) :
      CourseStep s a u k (.checked spec) (.registered spec.id)
  | mark {t} (ha : a = .call .enqueueMark) (hholder : s.holder = some (.enqueueMark k t))
      (hpasses : refuses s .enqueueMark = false) :
      CourseStep s a u k (.registered t) (.marked t)
  | push (t) : CourseStep s a u k (.marked t) (.returned .OK)
  | refuse {c status call} (ha : a = .call call) (hno : status.ok = false)
      (hrefuses : refuses s call = true) (hc : c.isUndecided = true)
      (hinside : s.submitting? = some (k, c)) (hbegun : call.isSubmitBegin = false) :
      CourseStep s a u k c (.returned status)

/-- `lifecycle_mu_` and `Scheduler::mu_` agree on who is inside `Enqueue`, and the call that
has begun has not returned. -/
structure Submitting (s : State) : Prop where
  inside : ∀ c, Holder.enqueue? s.holder = some c → s.lifecycle = some .inEnqueue
  entered : s.lifecycle = some .inEnqueue → (Holder.enqueue? s.holder).isSome = true
  unreturned : ∀ k c, s.submitting? = some (k, c) → s.submits.lookup k = none

theorem submitting_initial (workerIds : List WorkerID) (capacity : ResourceSet) (callback : Bool) :
    Submitting (.initial workerIds capacity callback) where
  inside _ h := by cases h
  entered h := by cases h
  unreturned k c h := by cases h

variable {s u : State} {evs : List Event}

theorem course_of_submitting (h : Submitting s) {k : Nat} {c : Course}
    (hs : s.submitting? = some (k, c)) : course s k = c := by
  simp only [course, h.unreturned k c hs, hs, if_true]

theorem submitting_registering {k : Nat} {spec : TaskSpec} {handler : TaskHandler}
    (hlife : s.lifecycle = some (.registering k spec handler)) :
    s.submitting? = some (k, .checked spec) := by
  rw [State.submitting?, hlife]
  rfl

theorem submitting_enqueuing {k : Nat} {t : TaskID}
    (hlife : s.lifecycle = some (.enqueuing k t)) : s.submitting? = some (k, .registered t) := by
  rw [State.submitting?, hlife]
  rfl

theorem Submitting.inEnqueue (h : Submitting s) {k : Nat} {c : Course}
    (hholder : Holder.enqueue? s.holder = some (k, c)) : s.submitting? = some (k, c) := by
  rw [State.submitting?, h.inside _ hholder]
  exact hholder

theorem submitting_none {lifecycle : Option LifecycleHolder} {holder : Option Holder}
    (h : LifecycleHolder.inSubmit lifecycle = false) :
    LocalSystem.submitting? lifecycle holder = none := by
  cases lifecycle with
  | none => rfl
  | some l => cases l <;> first | rfl | cases h

/-- `mu_` is not held for an `Enqueue` unless a call is inside. -/
theorem Submitting.enqueue?_none (h : Submitting s) (hlife : s.lifecycle ≠ some .inEnqueue) :
    Holder.enqueue? s.holder = none := by
  cases hholder : Holder.enqueue? s.holder with
  | none => rfl
  | some c => exact absurd (h.inside c hholder) hlife

/-- A step that touches neither the calls nor the mutexes they hold. -/
theorem Submitting.frame (h : Submitting s) (hsubmits : u.submits = s.submits)
    (hholder : Holder.enqueue? u.holder = Holder.enqueue? s.holder)
    (hlife : u.lifecycle = s.lifecycle ∨
      LifecycleHolder.inSubmit s.lifecycle = false ∧ LifecycleHolder.inSubmit u.lifecycle = false) :
    Submitting u ∧ ∀ k, course u k = course s k := by
  have hcall : u.submitting? = s.submitting? := by
    obtain he | ⟨hs, hu⟩ := hlife
    · simp only [State.submitting?, LocalSystem.submitting?, he, hholder]
    · simp only [State.submitting?, submitting_none hs, submitting_none hu]
  refine ⟨⟨?_, ?_, ?_⟩, ?_⟩
  · intro c hc
    rw [hholder] at hc
    have hin := h.inside c hc
    obtain he | ⟨hs, -⟩ := hlife
    · rw [he, hin]
    · rw [hin] at hs
      cases hs
  · intro hin
    rw [hholder]
    obtain he | ⟨-, hu⟩ := hlife
    · exact h.entered (he ▸ hin)
    · rw [hin] at hu
      cases hu
  · intro k c hc
    rw [hsubmits]
    exact h.unreturned k c (hcall ▸ hc)
  · intro k
    simp only [course, hsubmits, hcall]

/-- A call goes on. -/
theorem course_moves {k : Nat} {c c' : Course} (hs : s.submits.lookup k = none)
    (hc : s.submitting? = some (k, c) ∨ s.submitting? = none ∧ c = .outside)
    (hu : u.submits = s.submits) (hc' : u.submitting? = some (k, c')) :
    course s k = c ∧ course u k = c' ∧ ∀ k' ≠ k, course u k' = course s k' := by
  refine ⟨?_, ?_, fun k' hne => ?_⟩
  · obtain hc | ⟨hc, rfl⟩ := hc <;> simp [course, hs, hc]
  · simp [course, hu, hs, hc']
  · obtain hc | ⟨hc, -⟩ := hc <;> simp [course, hu, hc, hc', Ne.symm hne]

/-- A call returns. -/
theorem course_returns {k : Nat} {c : Course} {status : Status}
    (hs : s.submits.lookup k = none)
    (hc : s.submitting? = some (k, c) ∨ s.submitting? = none ∧ c = .outside)
    (hu : u.submits = s.submits.insert k status) (hc' : u.submitting? = none) :
    course s k = c ∧ course u k = .returned status ∧ ∀ k' ≠ k, course u k' = course s k' := by
  refine ⟨?_, ?_, fun k' hne => ?_⟩
  · obtain hc | ⟨hc, rfl⟩ := hc <;> simp [course, hs, hc]
  · simp [course, hu]
  · obtain hc | ⟨hc, -⟩ := hc <;>
      simp [course, hu, hc, hc', hne, Ne.symm hne]

/-- One call has moved and the others have not. -/
theorem courseStep_of_one {a : Action} {k : Nat} {c c' : Course}
    (h : course s k = c ∧ course u k = c' ∧ ∀ k' ≠ k, course u k' = course s k')
    (hc : CourseStep s a u k c c') (k' : Nat) : CourseStep s a u k' (course s k') (course u k') := by
  obtain ⟨hs, hu, hother⟩ := h
  by_cases hk : k' = k
  · subst hk
    rw [hs, hu]
    exact hc
  · rw [hother k' hk]
    exact .stay _

/-- No call is inside `Enqueue`. -/
theorem submitting_of_outside (hholder : Holder.enqueue? u.holder = none)
    (hlife : u.lifecycle ≠ some .inEnqueue)
    (hunreturned : ∀ k c, u.submitting? = some (k, c) → u.submits.lookup k = none) :
    Submitting u where
  inside c hc := by
    rw [hholder] at hc
    cases hc
  entered hin := absurd hin hlife
  unreturned := hunreturned

/-- No call is inside once `lifecycle_mu_` and `mu_` have been given up. -/
theorem submitting_of_free (hlife : u.lifecycle = none)
    (hholder : Holder.enqueue? u.holder = none) : Submitting u := by
  refine submitting_of_outside hholder (by simp [hlife]) (fun k c hc => ?_)
  rw [State.submitting?, hlife] at hc
  cases hc

/-! ## The sections of a call -/

theorem submitBegin_courseStep {k : Nat} {spec : TaskSpec} {handler : TaskHandler} (hs : Submitting s)
    (hfree : s.lifecycle = none) (hnew : s.submits.lookup k = none) :
    Submitting (submitBegin s k spec handler) ∧ ∀ k',
      CourseStep s (.call (.submitBegin k spec handler)) (submitBegin s k spec handler) k'
        (course s k') (course (submitBegin s k spec handler) k') := by
  have hout : s.submitting? = none := by
    rw [State.submitting?, hfree]
    rfl
  have hholder : Holder.enqueue? s.holder = none := hs.enqueue?_none (by simp [hfree])
  simp only [submitBegin]
  split
  · refine ⟨submitting_of_outside hholder (by simp) (fun k' c hc => ?_), ?_⟩
    · cases hc
      exact hnew
    · exact courseStep_of_one (course_moves hnew (.inr ⟨hout, rfl⟩) rfl rfl) (.begin rfl)
  · rename_i hchecks
    have hno : (submitChecks s spec handler).ok = false := by simpa using hchecks
    refine ⟨submitting_of_free rfl hholder, ?_⟩
    refine courseStep_of_one (course_returns hnew (.inr ⟨hout, rfl⟩) rfl rfl) ?_
    exact .refuseBegin rfl hno (by simp [refuses, hno])

theorem submitRegister_courseStep {k : Nat} {spec : TaskSpec} {handler : TaskHandler}
    (hs : Submitting s) (hlife : s.lifecycle = some (.registering k spec handler)) :
    Submitting (submitRegister s k spec handler) ∧ ∀ k',
      CourseStep s (.call .submitRegister) (submitRegister s k spec handler) k'
        (course s k') (course (submitRegister s k spec handler) k') := by
  have hin := submitting_registering hlife
  have hnew := hs.unreturned k _ hin
  have hholder : Holder.enqueue? s.holder = none := hs.enqueue?_none (by simp [hlife])
  simp only [submitRegister]
  obtain ⟨status, hno, he⟩ | ⟨hfresh, -, he⟩ := s.taskManager.register_cases spec handler
  · simp only [he, hno]
    refine ⟨submitting_of_free rfl hholder, ?_⟩
    refine courseStep_of_one (course_returns hnew (.inl hin) rfl rfl) ?_
    exact .refuse rfl hno (by simp [refuses, hlife, he, hno]) rfl hin rfl
  · simp only [he]
    refine ⟨submitting_of_outside hholder (by simp) (fun k' c hc => ?_), ?_⟩
    · cases hc
      exact hnew
    · refine courseStep_of_one (course_moves hnew (.inl hin) rfl rfl) (.register hin ?_ ?_ rfl ?_)
      · rw [stateOf, hfresh]
        rfl
      · show stateOf (s.taskManager.store spec.id _) spec.id = some .pending
        rw [stateOf_store, if_pos rfl]
        rfl
      · simp [refuses, hlife, he]

theorem enqueueBegin_courseStep {k : Nat} {t : TaskID} (hs : Submitting s)
    (hlife : s.lifecycle = some (.enqueuing k t)) (hfree : s.holder = none) :
    Submitting (enqueueBegin s k t) ∧ ∀ k',
      CourseStep s (.call .enqueueBegin) (enqueueBegin s k t) k'
        (course s k') (course (enqueueBegin s k t) k') := by
  have hin := submitting_enqueuing hlife
  have hnew := hs.unreturned k _ hin
  simp only [enqueueBegin]
  split
  · rename_i hclosed
    refine ⟨submitting_of_free rfl (by simp [State.submitReturns, hfree, Holder.enqueue?]), ?_⟩
    refine courseStep_of_one (course_returns hnew (.inl hin) rfl rfl) ?_
    exact .refuse rfl rfl (by simpa [refuses] using hclosed) rfl hin rfl
  · refine ⟨⟨fun _ _ => rfl, fun _ => rfl, fun k' c hc => ?_⟩, ?_⟩
    · cases hc
      exact hnew
    · exact courseStep_of_one (course_moves hnew (.inl hin) rfl rfl) (.stay _)

theorem enqueueMark_courseStep {k : Nat} {t : TaskID} (hs : Submitting s)
    (hholder : s.holder = some (.enqueueMark k t)) :
    Submitting (enqueueMark s k t) ∧ ∀ k',
      CourseStep s (.call .enqueueMark) (enqueueMark s k t) k'
        (course s k') (course (enqueueMark s k t) k') := by
  have hlife := hs.inside (k, .registered t) (by rw [hholder]; rfl)
  have hin : s.submitting? = some (k, .registered t) :=
    hs.inEnqueue (by rw [hholder]; rfl)
  have hnew := hs.unreturned k _ hin
  simp only [enqueueMark]
  split
  · rename_i hmarked
    refine ⟨⟨fun _ _ => hlife, fun _ => rfl, fun k' c hc => ?_⟩, ?_⟩
    · simp only [State.submitting?, hlife, LocalSystem.submitting?, Holder.enqueue?] at hc
      cases hc
      exact hnew
    · refine courseStep_of_one (course_moves hnew (.inl hin) rfl ?_) (.mark rfl hholder ?_)
      · rw [State.submitting?, hlife]
        rfl
      · simp [refuses, hholder, hmarked]
  · rename_i hrefused
    have hno : (s.taskManager.markQueued t).1.ok = false := by simpa using hrefused
    refine ⟨submitting_of_free rfl rfl, ?_⟩
    refine courseStep_of_one (course_returns hnew (.inl hin) rfl rfl) ?_
    exact .refuse rfl hno (by simp [refuses, hholder, hno]) rfl hin rfl

theorem enqueuePush_courseStep {k : Nat} {t : TaskID} {woken : Option Waiter}
    {sleeping : List Waiter} (hs : Submitting s) (hholder : s.holder = some (.enqueuePush k t)) :
    Submitting (enqueuePush s k t sleeping) ∧ ∀ k',
      CourseStep s (.call (.enqueuePush woken)) (enqueuePush s k t sleeping) k'
        (course s k') (course (enqueuePush s k t sleeping) k') := by
  have hin : s.submitting? = some (k, .marked t) :=
    hs.inEnqueue (by rw [hholder]; rfl)
  have hnew := hs.unreturned k _ hin
  refine ⟨submitting_of_free rfl rfl, ?_⟩
  exact courseStep_of_one (course_returns hnew (.inl hin) rfl rfl) (.push t)

theorem callStep_course {a : CallAction} (h : callStep s a = some u) (hs : Submitting s) :
    Submitting u ∧ ∀ k, CourseStep s (.call a) u k (course s k) (course u k) := by
  have frame : u.submits = s.submits →
      Holder.enqueue? u.holder = Holder.enqueue? s.holder → u.lifecycle = s.lifecycle →
      Submitting u ∧ ∀ k, CourseStep s (.call a) u k (course s k) (course u k) := by
    intro hsubmits hholder hlife
    obtain ⟨hu, hcourse⟩ := hs.frame hsubmits hholder (.inl hlife)
    refine ⟨hu, fun k => ?_⟩
    rw [hcourse k]
    exact .stay _
  cases a with
  | submitBegin k spec handler =>
    simp only [callStep] at h
    split at h
    · rename_i hfree hnew
      cases h
      exact submitBegin_courseStep hs hfree hnew
    · cases h
  | submitRegister =>
    simp only [callStep] at h
    split at h
    · rename_i hlife
      cases h
      exact submitRegister_courseStep hs hlife
    · cases h
  | enqueueBegin =>
    simp only [callStep] at h
    split at h
    · rename_i hlife hfree
      cases h
      exact enqueueBegin_courseStep hs hlife hfree
    · cases h
  | enqueueMark =>
    simp only [callStep] at h
    split at h
    · rename_i hholder
      cases h
      exact enqueueMark_courseStep hs hholder
    · cases h
  | enqueuePush woken =>
    simp only [callStep] at h
    split at h
    · rename_i hholder
      obtain ⟨sleeping, -, rfl⟩ := Option.map_eq_some_iff.mp h
      exact enqueuePush_courseStep hs hholder
    · cases h
  -- `Cancel` and `Drain` leave the calls of `Submit` alone
  | cancelBegin =>
    cases callMove h with
    | beginRemove hfree | beginCancel hfree => exact frame rfl (by rw [hfree]; rfl) rfl
    | notFound | drained | drainSleeps => exact frame rfl rfl rfl
  | cancelRemove =>
    cases callMove h with
    | refuseRemove _ hholder | remove hholder => exact frame rfl (by rw [hholder]; rfl) rfl
    | drained | drainSleeps => exact frame rfl rfl rfl
  | cancelTask =>
    cases callMove h with
    | refuseCancel _ _ hholder | cancel _ _ hholder => exact frame rfl (by rw [hholder]; rfl) rfl
    | drained | drainSleeps => exact frame rfl rfl rfl
  | cancelReturn =>
    cases callMove h with
    | notify hholder | cancelled hholder => exact frame rfl (by rw [hholder]; rfl) rfl
    | drained | drainSleeps => exact frame rfl rfl rfl
  | drainBegin | drainWait => cases callMove h <;> exact frame rfl rfl rfl

/-- A call that begins gets past its checks or returns. -/
theorem course_submitBegin {k : Nat} {spec : TaskSpec} {handler : TaskHandler}
    (h : callStep s (.submitBegin k spec handler) = some u) : course u k ≠ .outside := by
  simp only [callStep] at h
  split at h
  · rename_i hnew
    cases h
    simp only [submitBegin]
    split
    · simp [course, State.submitting?, LocalSystem.submitting?, hnew]
    · simp [course, State.submitReturns]
  · cases h

theorem enqueue?_none {holder : Option Holder} (h : Holder.isCall holder = false) :
    Holder.enqueue? holder = none := by
  cases holder with
  | none => rfl
  | some holder => cases holder <;> first | rfl | cases h

theorem CallsKept.enqueue? (h : CallsKept s u) :
    Holder.enqueue? u.holder = Holder.enqueue? s.holder := by
  obtain hholder | ⟨hs, hu⟩ := h.holder
  · rw [hholder]
  · rw [enqueue?_none hs, enqueue?_none hu]

theorem step_course {a : Action} (h : step s a = some u) (hs : Submitting s) :
    Submitting u ∧ ∀ k, CourseStep s a u k (course s k) (course u k) := by
  cases a with
  | call a => exact callStep_course h hs
  | loop | thread | lifecycle | wake =>
    have hkept := step_callsKept h (by simp)
    obtain ⟨hu, hcourse⟩ := hs.frame hkept.submits hkept.enqueue? hkept.lifecycle
    refine ⟨hu, fun k => ?_⟩
    rw [hcourse k]
    exact .stay _

/-- Whoever is about to mark its task got past the check of `Enqueue`, before or in this step. -/
theorem entered_before {a : Action} (h : step s a = some u) {k : Nat} {t : TaskID}
    (hholder : u.holder = some (.enqueueMark k t)) :
    s.holder = some (.enqueueMark k t) ∨ a = .call .enqueueBegin ∧
      s.lifecycle = some (.enqueuing k t) ∧ refuses s .enqueueBegin = false := by
  cases a with
  | loop | thread | lifecycle | wake =>
    obtain hsame | ⟨-, hnot⟩ := (step_callsKept h (by simp)).holder
    · exact .inl (hsame ▸ hholder)
    · rw [hholder] at hnot
      cases hnot
  | call a =>
    replace h : callStep s a = some u := h
    cases a with
    | enqueueBegin =>
      simp only [callStep] at h
      split at h
      · rename_i hlife hfree
        cases h
        simp only [enqueueBegin] at hholder
        split at hholder
        · rw [State.submitReturns, hfree] at hholder
          cases hholder
        · rename_i hopen
          cases hholder
          exact .inr ⟨rfl, hlife, by simpa [refuses] using hopen⟩
      · cases h
    | submitBegin | submitRegister | enqueueMark | enqueuePush | cancelBegin | cancelRemove
    | cancelTask | cancelReturn | drainBegin | drainWait =>
      cases callMove h <;> first | exact .inl hholder | cases hholder

theorem isInside_of_submitting {lifecycle : Option LifecycleHolder} {holder : Option Holder}
    {k : Nat} {c : Course} (h : LocalSystem.submitting? lifecycle holder = some (k, c)) :
    c.isInside = true := by
  simp only [LocalSystem.submitting?] at h
  split at h
  · cases h
    rfl
  · cases h
    rfl
  · simp only [Holder.enqueue?] at h
    split at h
    · cases h
      rfl
    · cases h
      rfl
    · cases h
  · cases h

theorem course_of_returned {k : Nat} {status : Status} (h : s.submits.lookup k = some status) :
    course s k = .returned status := by
  simp only [course, h]

theorem returned_of_course {k : Nat} {status : Status} (h : course s k = .returned status) :
    s.submits.lookup k = some status := by
  simp only [course] at h
  split at h
  · rename_i hreturned
    cases h
    exact hreturned
  · split at h
    · rename_i hinside
      split at h
      · subst h
        cases isInside_of_submitting hinside
      · cases h
    · cases h

theorem submits_of_course {k : Nat} (h : ∀ status, course s k ≠ .returned status) :
    s.submits.lookup k = none := by
  cases hk : s.submits.lookup k with
  | none => rfl
  | some status => exact absurd (course_of_returned hk) (h status)

/-- The status of a call, `OK` as long as it has not returned. -/
def provisional (s : State) (k : Nat) : Status := (s.submits.lookup k).getD .OK

/-- Only a refusal changes the provisional status of a call. -/
theorem step_provisional {a : Action} (h : step s a = some u) (hs : Submitting s)
    (k : Nat) : provisional u k = provisional s k ∨ ∃ call, a = .call call ∧
      refuses s call = true ∧ ((∃ spec handler, call = .submitBegin k spec handler) ∨
        call.isSubmitBegin = false ∧ ∃ c, s.submitting? = some (k, c)) := by
  have hcourse := (step_course h hs).2 k
  have outside : ∀ {s : State}, (∀ status, course s k ≠ .returned status) →
      provisional s k = .OK := fun hc => by
    rw [provisional, submits_of_course hc]
    rfl
  generalize hb : course s k = c at hcourse
  generalize hn : course u k = c' at hcourse
  cases hcourse with
  | stay =>
    left
    cases c with
    | returned status =>
      rw [provisional, provisional, returned_of_course hb, returned_of_course hn]
    | outside | checked | registered | marked =>
      rw [outside (by simp [hn]), outside (by simp [hb])]
  | begin | register | mark => exact .inl (by rw [outside (by simp [hn]), outside (by simp [hb])])
  | push =>
    left
    rw [provisional, returned_of_course hn, outside (by simp [hb])]
    rfl
  | refuseBegin ha hno hrefuses => exact .inr ⟨_, ha, hrefuses, .inl ⟨_, _, rfl⟩⟩
  | refuse ha hno hrefuses hc hinside hbegun =>
    exact .inr ⟨_, ha, hrefuses, .inr ⟨hbegun, _, hinside⟩⟩

theorem isInside_of_isUndecided {c : Course} (h : c.isUndecided = true) : c.isInside = true := by
  cases c <;> first | rfl | cases h

theorem isAccepted_eq_false {c : Course} (h : c.isUndecided = true) : c.isAccepted = false := by
  cases c <;> first | rfl | cases h

/-- An accepted call stays accepted. -/
theorem CourseStep.accepted {a : Action} {k : Nat} {c c' : Course} (h : CourseStep s a u k c c')
    (hc : c.isAccepted = true) : c'.isAccepted = true := by
  cases h with
  | stay => exact hc
  | push => rfl
  | refuse _ _ _ hundecided =>
    rw [isAccepted_eq_false hundecided] at hc
    cases hc
  | begin | refuseBegin | register | mark => cases hc

theorem CourseStep.returned {a : Action} {k : Nat} {status : Status} {c' : Course}
    (h : CourseStep s a u k (.returned status) c') : c' = .returned status := by
  cases h with
  | stay => rfl
  | refuse _ _ _ hundecided => cases hundecided

/-- How a call comes to have made the record of its task. -/
theorem CourseStep.registered {a : Action} {k : Nat} {c c' : Course}
    (h : CourseStep s a u k c c') (hc : c'.isRegistered = true) :
    c.isRegistered = true ∨ ∃ spec, c' = .registered spec.id ∧
      s.submitting? = some (k, .checked spec) ∧ stateOf s.taskManager spec.id = none ∧
      stateOf u.taskManager spec.id = some .pending ∧ a = .call .submitRegister ∧
      refuses s .submitRegister = false := by
  cases h with
  | stay => exact .inl hc
  | mark | push => exact .inl rfl
  | register hinside hnew hmade ha hpasses =>
    exact .inr ⟨_, rfl, hinside, hnew, hmade, ha, hpasses⟩
  | begin => cases hc
  | refuseBegin _ hno | refuse _ hno =>
    simp only [Course.isRegistered, hno] at hc
    cases hc

/-- How a call comes to be accepted. -/
theorem CourseStep.accepts {a : Action} {k : Nat} {c c' : Course}
    (h : CourseStep s a u k c c') (hc : c'.isAccepted = true) :
    c.isAccepted = true ∨ ∃ t, c = .registered t ∧ a = .call .enqueueMark ∧
      s.holder = some (.enqueueMark k t) ∧ refuses s .enqueueMark = false := by
  cases h with
  | stay => exact .inl hc
  | push => exact .inl rfl
  | mark ha hholder hpasses => exact .inr ⟨_, rfl, ha, hholder, hpasses⟩
  | begin | register => cases hc
  | refuseBegin _ hno | refuse _ hno =>
    simp only [Course.isAccepted, hno] at hc
    cases hc

theorem isRegistered_of_isAccepted {c : Course} (h : c.isAccepted = true) :
    c.isRegistered = true := by
  cases c <;> first | exact h | rfl

/-! ## The record of a submitted task -/

/-- A call that is past `MarkQueued` holds `mu_`, and its task is queued. -/
theorem queued_of_marked (hi : Inv s) {k : Nat} {t : TaskID} (hc : course s k = .marked t) :
    stateOf s.taskManager t = some .queued := by
  have hholder : s.holder = some (.enqueuePush k t) := by
    simp only [course] at hc
    split at hc
    · cases hc
    · split at hc
      · rename_i hinside
        split at hc
        · rename_i hk
          subst hc hk
          simp only [State.submitting?, LocalSystem.submitting?] at hinside
          split at hinside
          · cases hinside
          · cases hinside
          · simp only [Holder.enqueue?] at hinside
            split at hinside
            · cases hinside
            · rename_i hholder
              cases hinside
              exact hholder
            · cases hinside
          · cases hinside
        · cases hc
      · cases hc
  obtain ⟨record, hrecord, hqueued⟩ := (hi.queueing.queued t).mpr (.inr (by rw [hholder]; rfl))
  rw [stateOf_of_lookup hrecord, hqueued]

/-- The section of `Enqueue` that makes the task queued. -/
theorem enqueueMark_course {k : Nat} {t : TaskID} (h : callStep s .enqueueMark = some u)
    (hs : Submitting s) (hholder : s.holder = some (.enqueueMark k t))
    (hq : stateOf u.taskManager t ≠ stateOf s.taskManager t) :
    course s k = .registered t ∧ course u k = .marked t := by
  have hlife := hs.inside (k, .registered t) (by rw [hholder]; rfl)
  have hu := (callStep_course h hs).1
  refine ⟨course_of_submitting hs ?_, course_of_submitting hu ?_⟩
  · exact hs.inEnqueue (by rw [hholder]; rfl)
  · simp only [callStep, hholder, Option.some.injEq] at h
    subst h
    simp only [enqueueMark] at hq ⊢
    split
    · simp only [State.submitting?, hlife]
      rfl
    · rename_i hrefused
      have hsame : (s.taskManager.markQueued t).2 = s.taskManager := by
        obtain ⟨status, -, he, -⟩ | ⟨record, -, -, he⟩ :=
          s.taskManager.mark_cases t "task is not registered" .queued (fun record => record)
        · exact congrArg Prod.snd he
        · exact absurd (congrArg (fun done => done.1.ok) he) hrefused
      rw [if_neg hrefused] at hq
      exact absurd (congrArg (fun tm => stateOf tm t) hsame) hq

theorem taskManager_drainWait (s : State) (k : Nat) :
    (drainWait s k).taskManager = s.taskManager := by
  simp only [drainWait]
  split <;> rfl

/-- A pending task becomes queued in the section of `Enqueue` that is about it. -/
theorem step_queues {a : Action} (h : step s a = some u) (hi : Inv s) (hs : Submitting s)
    {t : TaskID} (hp : stateOf s.taskManager t = some .pending)
    (hq : stateOf u.taskManager t = some .queued) :
    a = .call .enqueueMark ∧ ∃ k, s.holder = some (.enqueueMark k t) ∧
      course s k = .registered t ∧ course u k = .marked t := by
  -- only a call that is inside `Enqueue` can do this
  have inside : ∀ (submitting : TaskSpec → TaskHandler → Prop) (holder : Option Holder),
      TaskStep submitting holder t (stateOf s.taskManager t) (stateOf u.taskManager t) →
      ∃ k, holder = some (.enqueueMark k t) := by
    intro submitting holder hstep
    rw [hp, hq] at hstep
    cases hstep with
    | queue hholder => exact ⟨_, hholder⟩
    | advance hactive _ => cases hactive
  cases a with
  | call a =>
    obtain ⟨k, hholder⟩ := inside _ _ (callEffect_taskStep (callEffect h hi.unfailing) t)
    have hlife := hs.inside (k, .registered t) (by rw [hholder]; rfl)
    cases a with
    | enqueueMark =>
      exact ⟨rfl, k, hholder, enqueueMark_course h hs hholder (by rw [hp, hq]; simp)⟩
    | drainBegin k' =>
      simp only [step, callStep] at h
      split at h
      · cases h
        simp only [drainBegin, taskManager_drainWait, apply_ite State.taskManager, ite_self,
          hp] at hq
        cases hq
      · cases h
    | drainWait k' =>
      simp only [step, callStep] at h
      split at h
      · split at h
        · cases h
        · cases h
          rw [taskManager_drainWait, hp] at hq
          cases hq
      · cases h
    | submitBegin | submitRegister | enqueueBegin | enqueuePush | cancelBegin | cancelRemove
    | cancelTask | cancelReturn => simp [step, callStep, hholder, hlife] at h
  | loop a =>
    obtain ⟨k, hk⟩ := inside (fun _ _ => False) none
      (loopEffect_taskStep (loopEffect h hi.unfailing) t)
    cases hk
  | thread w a =>
    obtain ⟨k, hk⟩ := inside (fun _ _ => False) none
      (threadEffect_taskStep (threadEffect h hi.unfailing) t)
    cases hk
  | lifecycle a =>
    rw [(lifecycleEffect h hi.stage).taskManager, hp] at hq
    cases hq
  | wake waiter =>
    obtain rfl := step_wake h
    rw [hp] at hq
    cases hq

/-- What is known of every reachable state of the runtime. -/
structure Sound (s : State) : Prop where
  inv : Inv s
  submitting : Submitting s
  completed : Completed s

theorem sound_initial (workerIds : List WorkerID) (capacity : ResourceSet) (callback : Bool) :
    Sound (.initial workerIds capacity callback) :=
  ⟨inv_initial workerIds capacity callback, submitting_initial workerIds capacity callback,
    completed_initial workerIds capacity callback⟩

theorem step_sound {a : Action} (h : step s a = some u) (hs : Sound s) : Sound u :=
  ⟨step_inv h hs.inv, (step_course h hs.submitting).1, step_completed h hs.inv hs.completed⟩

end LocalSystem

end AgentRuntime
