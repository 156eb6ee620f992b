import AgentRuntime.Local.Admission
import AgentRuntime.Local.Sections
import AgentRuntime.Local.Shutdown

/-!
# Submission is all or nothing

`Submit` registers the task and then enqueues it, and there is no way to take a
registration back. So it must not be refused in between: a call that has passed
the gate of the runtime finds the scheduler started and not stopping, and its
task pending, however the other threads interleave.
-/
namespace AgentRuntime

namespace LocalSystem

/-! ## Behind the gate the scheduler is up -/

/-- Between the sections of `Scheduler::Shutdown`. -/
def ControlPhase.isStopping : ControlPhase → Bool
  | .notifying | .joiningLoop | .loopJoined => true
  | _ => false

/-- The gate is open, a call is behind it, or `Start` is about to open it. -/
def Passable (s : State) : Prop :=
  s.accepting = true ∨ LifecycleHolder.inSubmit s.lifecycle = true ∨ s.lifecycle = some .opening

structure Gate (s : State) : Prop where
  up : Passable s → s.started = true ∧ s.stopping = false
  stopping : s.started = true → s.stopping = true → s.control.isStopping = true

theorem gate_initial (workerIds : List WorkerID) (capacity : ResourceSet) (callback : Bool) :
    Gate (.initial workerIds capacity callback) where
  up h := by obtain h | h | h := h <;> cases h
  stopping h := by cases h

variable {s u : State} {evs : List Event} {k : Nat}

/-- A step that leaves the scheduler up or down and opens nothing. -/
theorem Gate.frame (h : Gate s) (hstarted : u.started = s.started)
    (hstopping : u.stopping = s.stopping) (hopen : Passable u → Passable s)
    (hcontrol : s.control.isStopping = true → u.control.isStopping = true) : Gate u where
  up hu := by
    rw [hstarted, hstopping]
    exact h.up (hopen hu)
  stopping hs ht := by
    rw [hstarted] at hs
    rw [hstopping] at ht
    exact hcontrol (h.stopping hs ht)

/-- `lifecycle_mu_` stays with its owner, or goes to nobody who is behind the gate. -/
theorem Passable.before (h : Passable u) (haccepting : u.accepting = true → s.accepting = true)
    (hlife : u.lifecycle = s.lifecycle ∨
      LifecycleHolder.inSubmit u.lifecycle = false ∧ u.lifecycle ≠ some .opening) :
    Passable s := by
  obtain hopen | hopen | hopen := h
  · exact .inl (haccepting hopen)
  · obtain he | ⟨hno, -⟩ := hlife
    · exact .inr (.inl (he ▸ hopen))
    · rw [hno] at hopen
      cases hopen
  · obtain he | ⟨-, hno⟩ := hlife
    · exact .inr (.inr (he ▸ hopen))
    · exact absurd hopen hno

theorem accepting_of_submitChecks {spec : TaskSpec} {handler : TaskHandler}
    (h : (submitChecks s spec handler).ok = true) : s.accepting = true := by
  cases ha : s.accepting with
  | true => rfl
  | false =>
    rw [submitChecks_closed ha] at h
    cases h

theorem callMove_gate {a : CallAction} (h : CallMove s a u) (hg : Gate s) : Gate u := by
  cases h with
  | refuseChecks | refuseRegister | refuseEnqueue | refuseMark | push =>
    exact hg.frame rfl rfl (fun hopen => hopen.before id (.inr ⟨rfl, nofun⟩)) id
  | passChecks _ hchecks =>
    exact hg.frame rfl rfl (fun _ => .inl (accepting_of_submitChecks hchecks)) id
  | register _ hlife | enterEnqueue hlife =>
    exact hg.frame rfl rfl (fun _ => .inr (.inl (by rw [hlife]; rfl))) id
  | markQueued | notFound | beginRemove | beginCancel | remove | refuseRemove | cancel
  | refuseCancel | notify | cancelled | drainRefused | drained | drainSleeps =>
    exact hg.frame rfl rfl id id

theorem loopEffect_gate (h : LoopEffect s evs u) (hg : Gate s) : Gate u := by
  cases h <;> exact hg.frame rfl rfl id id

theorem threadEffect_gate {w : WorkerID} (h : ThreadEffect s w evs u) (hg : Gate s) : Gate u := by
  cases h <;> exact hg.frame rfl rfl id id

/-- Nothing is behind the gate while `Shutdown` is under way. -/
theorem Closing.impassable (h : Closing s) (hon : s.control ≠ .off) :
    ¬ Passable s := by
  obtain ⟨hclosed, hlife⟩ := h.closed hon
  rintro (hopen | hopen | hopen)
  · rw [hclosed] at hopen
    cases hopen
  · rw [hlife] at hopen
    cases hopen
  · rw [hlife] at hopen
    cases hopen

theorem lifecycleMove_gate {a : LifecycleAction} (h : LifecycleMove s a u) (hst : Stage s)
    (hc : Closing s) (hg : Gate s) : Gate u := by
  -- a phase of `Shutdown` in which the scheduler is not being stopped
  have phase : ∀ {u : State}, u.started = s.started → u.stopping = s.stopping →
      u.accepting = s.accepting → u.lifecycle = s.lifecycle →
      (s.control.isStopping = true → u.control.isStopping = true) → Gate u := by
    intro u hstarted hstopping haccepting hlife hcontrol
    exact hg.frame hstarted hstopping (fun hopen => hopen.before (haccepting ▸ id) (.inl hlife))
      hcontrol
  have up : s.lifecycle = some .startingScheduler → s.started = true →
      s.started = true ∧ s.stopping = false := by
    intro hlife hup
    refine ⟨hup, ?_⟩
    cases hs : s.stopping with
    | false => rfl
    | true =>
      have hcontrol := hg.stopping hup hs
      rw [hst.control_off hlife rfl] at hcontrol
      cases hcontrol
  cases h with
  | ignored => exact hg
  | startBegin _ _ _ _ _ hnext | startPool _ hnext =>
    refine hg.frame rfl rfl (fun hopen => hopen.before id (.inr ?_)) id
    obtain rfl | rfl := hnext <;> exact ⟨rfl, by simp⟩
  | startScheduler => exact ⟨fun _ => ⟨rfl, rfl⟩, fun _ h => by cases h⟩
  | keepScheduler hlife hup => exact ⟨fun _ => up hlife hup, hg.stopping⟩
  | «open» hlife => exact ⟨fun _ => hg.up (.inr (.inr hlife)), hg.stopping⟩
  | shutdownBegin hlife hoff =>
    exact hg.frame rfl rfl (fun hopen => hopen.before nofun (.inl rfl))
      (by simp [hoff, ControlPhase.isStopping])
  | drainRefused hcontrol hdown =>
    exact phase rfl rfl rfl rfl (by simp [hcontrol, ControlPhase.isStopping])
  | drained hcontrol | drainSleeps hcontrol =>
    obtain h | ⟨h, -⟩ := hcontrol <;>
      exact phase rfl rfl rfl rfl (by simp [h, ControlPhase.isStopping])
  | stop hcontrol =>
    exact ⟨fun hopen => absurd hopen (hc.impassable (by simp [hcontrol])), fun _ _ => rfl⟩
  | stopped hcontrol =>
    exact ⟨fun hopen => absurd hopen (hc.impassable (by simp [hcontrol])),
      fun h => by cases h⟩
  | notStarted hcontrol | notify hcontrol | join hcontrol | closePool hcontrol
  | poolDown hcontrol | stopWorker hcontrol | skipWorker hcontrol | allStopped hcontrol
  | joinWorker hcontrol | resetWorker hcontrol =>
    exact phase rfl rfl rfl rfl (by simp [hcontrol, ControlPhase.isStopping])
  | publish hcontrol hlife =>
    exact hg.frame rfl rfl (fun hopen => hopen.before nofun (.inl rfl))
      (by simp [hcontrol, ControlPhase.isStopping])

theorem step_gate {a : Action} (h : step s a = some u) (hi : Inv s) (hc : Closing s)
    (hg : Gate s) : Gate u := by
  cases a with
  | call a => exact callMove_gate (callMove h) hg
  | loop a => exact loopEffect_gate (loopEffect h hi.unfailing) hg
  | thread w a => exact threadEffect_gate (threadEffect h hi.unfailing) hg
  | lifecycle a => exact lifecycleMove_gate (lifecycleMove h) hi.stage hc hg
  | wake waiter =>
    obtain rfl := step_wake h
    exact hg.frame rfl rfl id id

/-! ## A registered task waits for its own call -/

theorem submitting_of_course {c : Course} (h : course s k = c) (hinside : c.isInside = true) :
    s.submitting? = some (k, c) := by
  simp only [course] at h
  split at h
  · subst h
    cases hinside
  · split at h
    · rename_i hs
      split at h
      · rename_i he
        rw [hs, he, h]
      · subst h
        cases hinside
    · subst h
      cases hinside

/-- Until its call gets to `MarkQueued` the task is pending. -/
def Awaited (s : State) : Prop :=
  ∀ k t, course s k = .registered t → stateOf s.taskManager t = some .pending

theorem awaited_initial (workerIds : List WorkerID) (capacity : ResourceSet) (callback : Bool) :
    Awaited (.initial workerIds capacity callback) := fun _ _ h => by cases h

theorem step_awaited {a : Action} (h : step s a = some u) (hi : Inv s) (hs : Submitting s)
    (hp : Awaited s) : Awaited u := by
  intro k t hu
  have hcourse := (step_course h hs).2 k
  rw [hu] at hcourse
  generalize hb : course s k = c at hcourse
  cases hcourse with
  | register _ _ hmade => exact hmade
  | stay =>
    have hpending := hp k t hb
    have hstep := step_taskStep h hi t
    rw [hpending] at hstep
    generalize hn : stateOf u.taskManager t = y at hstep
    cases hstep with
    | stay => rfl
    | advance hactive => cases hactive
    | queue _ =>
      obtain ⟨-, k', -, hs', hu'⟩ := step_queues h hi hs hpending hn
      have hsame := submitting_of_course hb rfl
      rw [submitting_of_course hs' rfl] at hsame
      cases hsame
      rw [hu] at hu'
      cases hu'

/-! ## The sections of the call -/

namespace Section

/-- The checks of `Submit` pass, and the total capacity of some worker covers the request. -/
def Admits (k : Nat) (spec : TaskSpec) (handler : TaskHandler) (x : Section) : Prop :=
  x.action = .call (.submitBegin k spec handler) ∧ x.IsQuiet ∧
    ∃ w ∈ x.before.pool.workerIds, x.before.resourceManager.registered w ∧
      ∀ name, spec.resources.amount name ≤ x.before.resourceManager.total w name

/-- `TaskManager::Register` of a new task. -/
def Registers (spec : TaskSpec) (handler : TaskHandler) (x : Section) : Prop :=
  x.before.record spec.id = none ∧
    x.after = { x.before with
      lifecycle := x.after.lifecycle
      taskManager := x.before.taskManager.store spec.id (TaskManager.newRecord spec handler) }

/-- `TaskManager::MarkQueued` of a pending task. -/
def MarksQueued (t : TaskID) (x : Section) : Prop :=
  ∃ record, x.before.record t = some record ∧ record.state = .pending ∧
    x.after = { x.before with
      holder := x.after.holder
      taskManager := x.before.taskManager.store t { record with state := .queued } }

/-- `TaskQueue::Push`, with which the call returns. -/
def Pushes (t : TaskID) (x : Section) : Prop :=
  t ∉ x.before.queue ∧
    x.after = { x.before with
      lifecycle := x.after.lifecycle, holder := x.after.holder, submits := x.after.submits,
      queue := x.before.queue ++ [t], wakeRequested := true, sleeping := x.after.sleeping }

end Section

/-- The sections of a call that accepts a task; on the way into `Enqueue` it writes nothing. -/
def Accepts (k : Nat) (spec : TaskSpec) (handler : TaskHandler) (own : List Section) : Prop :=
  ∃ check register enter mark push, own = [check, register] ++ enter ++ [mark, push] ∧
    check.Admits k spec handler ∧ register.Registers spec handler ∧ (∀ x ∈ enter, x.IsQuiet) ∧
    mark.MarksQueued spec.id ∧ push.Pushes spec.id

/-- What a call has done that returned the status. -/
inductive SubmitResult (k : Nat) : Status → List Section → Prop where
  | refused {status own} (hno : status.ok = false) (hquiet : ∀ x ∈ own, x.IsQuiet) :
      SubmitResult k status own
  | accepted {spec handler own} (h : Accepts k spec handler own) : SubmitResult k .OK own

/-- How far a call is, and the sections that it has taken so far. -/
inductive Accepting (k : Nat) (s : State) : List Section → Prop where
  | outside (hc : course s k = .outside) : Accepting k s []
  | checked {spec handler check} (hlife : s.lifecycle = some (.registering k spec handler))
      (hcheck : check.Admits k spec handler) : Accepting k s [check]
  | registered {spec handler check register} (enter : List Section)
      (hc : course s k = .registered spec.id) (hcheck : check.Admits k spec handler)
      (hregister : register.Registers spec handler) (hquiet : ∀ x ∈ enter, x.IsQuiet) :
      Accepting k s ([check, register] ++ enter)
  | marked {spec handler check register enter mark} (hc : course s k = .marked spec.id)
      (hcheck : check.Admits k spec handler) (hregister : register.Registers spec handler)
      (hquiet : ∀ x ∈ enter, x.IsQuiet) (hmark : mark.MarksQueued spec.id) :
      Accepting k s ([check, register] ++ enter ++ [mark])
  | returned {status own} (hc : course s k = .returned status)
      (hresult : SubmitResult k status own) : Accepting k s own

/-! ## The steps of other threads -/

theorem caller_submit {c : Course} (hinside : s.submitting? = some (k, c)) {a : CallAction}
    (ha : a = .submitRegister ∨ a = .enqueueBegin ∨ a = .enqueueMark ∨
      ∃ woken, a = .enqueuePush woken) : caller s (.call a) = some (.submit k) := by
  obtain rfl | rfl | rfl | ⟨woken, rfl⟩ := ha <;> simp [caller, hinside]

/-- While a call is inside, only its own sections touch `lifecycle_mu_` and the statuses. -/
theorem lifecycle_kept {a : Action} (h : step s a = some u) {c : Course}
    (hinside : s.submitting? = some (k, c)) (hcaller : caller s a ≠ some (.submit k)) :
    u.lifecycle = s.lifecycle ∧ u.submits = s.submits := by
  cases a with
  | call a =>
    have h : callStep s a = some u := h
    cases a with
    | submitBegin =>
      simp only [callStep] at h
      split at h
      · rename_i hfree _
        simp [State.submitting?, hfree, LocalSystem.submitting?] at hinside
      · cases h
    | submitRegister => exact absurd (caller_submit hinside (.inl rfl)) hcaller
    | enqueueBegin => exact absurd (caller_submit hinside (.inr (.inl rfl))) hcaller
    | enqueueMark => exact absurd (caller_submit hinside (.inr (.inr (.inl rfl)))) hcaller
    | enqueuePush woken =>
      exact absurd (caller_submit hinside (.inr (.inr (.inr ⟨woken, rfl⟩)))) hcaller
    | cancelBegin | cancelRemove | cancelTask | cancelReturn | drainBegin | drainWait =>
      cases callMove h <;> exact ⟨rfl, rfl⟩
  | loop | thread | lifecycle | wake =>
    have hkept := step_callsKept h (by simp)
    obtain hlife | ⟨hno, -⟩ := hkept.lifecycle
    · exact ⟨hlife, hkept.submits⟩
    · rw [State.submitting?, submitting_none hno] at hinside
      cases hinside

/-- Nobody else moves a call along its course. -/
theorem course_kept {a : Action} (h : step s a = some u) (hs : Submitting s)
    (hcaller : caller s a ≠ some (.submit k)) : course u k = course s k := by
  cases a with
  | loop | thread | lifecycle | wake =>
    have hkept := step_callsKept h (by simp)
    exact (hs.frame hkept.submits hkept.enqueue? hkept.lifecycle).2 k
  | call a =>
    have hcourse := (callStep_course h hs).2 k
    generalize hb : course s k = c at hcourse
    generalize hn : course u k = c' at hcourse
    cases hcourse with
    | stay => rfl
    | «begin» ha | refuseBegin ha =>
      cases ha
      exact absurd rfl hcaller
    | register hinside _ _ ha =>
      cases ha
      exact absurd (caller_submit hinside (.inl rfl)) hcaller
    | mark ha hholder =>
      cases ha
      have hinside := submitting_of_course hb rfl
      exact absurd (caller_submit hinside (.inr (.inr (.inl rfl)))) hcaller
    | push t =>
      have hkept := (lifecycle_kept h (submitting_of_course hb rfl) hcaller).2
      have hreturned := returned_of_course hn
      rw [hkept, submits_of_course (by simp [hb])] at hreturned
      cases hreturned
    | refuse ha _ hrefuses _ hinside hbegun =>
      cases ha
      cases a with
      | submitRegister => exact absurd (caller_submit hinside (.inl rfl)) hcaller
      | enqueueBegin => exact absurd (caller_submit hinside (.inr (.inl rfl))) hcaller
      | enqueueMark => exact absurd (caller_submit hinside (.inr (.inr (.inl rfl)))) hcaller
      | submitBegin => cases hbegun
      | enqueuePush | cancelBegin | cancelRemove | cancelTask | cancelReturn | drainBegin
      | drainWait => cases hrefuses

theorem Accepting.aside {own : List Section} {a : Action} (hc : Accepting k s own)
    (h : step s a = some u) (hs : Submitting s)
    (hcaller : caller s a ≠ some (.submit k)) : Accepting k u own := by
  have hkept := course_kept h hs hcaller
  cases hc with
  | outside hc => exact .outside (hkept.trans hc)
  | @checked spec handler check hlife hcheck =>
    have hinside := submitting_registering hlife
    exact .checked ((lifecycle_kept h hinside hcaller).1.trans hlife) hcheck
  | registered enter hc hcheck hregister hquiet =>
    exact .registered enter (hkept.trans hc) hcheck hregister hquiet
  | marked hc hcheck hregister hquiet hmark =>
    exact .marked (hkept.trans hc) hcheck hregister hquiet hmark
  | returned hc hresult => exact .returned (hkept.trans hc) hresult

/-! ## The steps of the call -/

theorem submitBegin_accepting {spec : TaskSpec} {handler : TaskHandler} {own : List Section}
    (hc : Accepting k s own) (h : callStep s (.submitBegin k spec handler) = some u) :
    Accepting k u (own ++ [⟨s, .call (.submitBegin k spec handler), u⟩]) := by
  have hcourse := course_outside h
  simp only [callStep] at h
  split at h
  · rename_i hlife hnew
    cases h
    cases hc with
    | outside _ =>
      simp only [submitBegin, List.nil_append]
      split
      · rename_i hchecks
        obtain ⟨w, hmem, hfits⟩ := placeable_of_submitChecks hchecks
        exact .checked rfl ⟨rfl, rfl, w, hmem, ResourceManager.canFitTotal_iff.mp hfits⟩
      · rename_i hno
        refine .returned (course_of_returned (Finmap.lookup_insert _))
          (.refused (by simpa using hno) (fun x hx => ?_))
        obtain rfl := List.mem_singleton.mp hx
        rfl
    | checked hlife' =>
      rw [hlife] at hlife'
      cases hlife'
    | registered _ hc | marked hc | returned hc =>
      rw [hcourse] at hc
      cases hc
  · cases h

theorem submitRegister_accepting {spec : TaskSpec} {handler : TaskHandler} {own : List Section}
    (hc : Accepting k s own) (hs : Submitting s)
    (hlife : s.lifecycle = some (.registering k spec handler)) :
    Accepting k (submitRegister s k spec handler)
      (own ++ [⟨s, .call .submitRegister, submitRegister s k spec handler⟩]) := by
  have hinside := submitting_registering hlife
  have hcourse := course_of_submitting hs hinside
  cases hc with
  | checked hlife' hcheck =>
    rw [hlife] at hlife'
    cases hlife'
    simp only [submitRegister]
    obtain ⟨status, hno, he⟩ | ⟨hnew, -, he⟩ := s.taskManager.register_cases spec handler
    · simp only [he, hno]
      refine .returned (course_of_returned (Finmap.lookup_insert _)) (.refused hno (fun x hx => ?_))
      obtain rfl | hx := List.mem_cons.mp hx
      · exact hcheck.2.1
      · obtain rfl := List.mem_singleton.mp hx
        rfl
    · simp only [he]
      refine .registered [] ?_ hcheck ⟨hnew, rfl⟩ (fun x hx => by cases hx)
      simp [course, State.submitting?, LocalSystem.submitting?, hs.unreturned k _ hinside]
  | outside hc | registered _ hc | marked hc | returned hc =>
    rw [hcourse] at hc
    cases hc

/-- `Enqueue` is open to a call that has passed the gate. -/
theorem enqueueBegin_enters (hg : Gate s) {t : TaskID} (hlife : s.lifecycle = some (.enqueuing k t)) :
    enqueueBegin s k t =
      { s with holder := some (.enqueueMark k t), lifecycle := some .inEnqueue } := by
  obtain ⟨hstarted, hstopping⟩ := hg.up (.inr (.inl (by rw [hlife]; rfl)))
  simp [enqueueBegin, hstarted, hstopping]

theorem enqueueBegin_accepting {t : TaskID} {own : List Section} (hc : Accepting k s own)
    (hs : Submitting s) (hg : Gate s) (hlife : s.lifecycle = some (.enqueuing k t)) :
    Accepting k (enqueueBegin s k t) (own ++ [⟨s, .call .enqueueBegin, enqueueBegin s k t⟩]) := by
  have hinside := submitting_enqueuing hlife
  have hcourse := course_of_submitting hs hinside
  rw [enqueueBegin_enters hg hlife]
  cases hc with
  | registered _ hc hcheck hregister hquiet =>
    rw [hcourse] at hc
    cases hc
    rw [List.append_assoc]
    refine .registered _ ?_ hcheck hregister (fun x hx => ?_)
    · simp [course, State.submitting?, LocalSystem.submitting?, Holder.enqueue?,
        hs.unreturned k _ hinside]
    · obtain hx | hx := List.mem_append.mp hx
      · exact hquiet x hx
      · obtain rfl := List.mem_singleton.mp hx
        rfl
  | checked hlife' =>
    rw [hlife] at hlife'
    cases hlife'
  | outside hc | marked hc | returned hc =>
    rw [hcourse] at hc
    cases hc

/-- `MarkQueued` is not refused: the task is as it was registered. -/
theorem enqueueMark_marks (hs : Submitting s) (hp : Awaited s) {t : TaskID}
    (hholder : s.holder = some (.enqueueMark k t)) : ∃ record, s.record t = some record ∧
      record.state = .pending ∧ enqueueMark s k t = { s with
        taskManager := s.taskManager.store t { record with state := .queued }
        holder := some (.enqueuePush k t) } := by
  have hinside : s.submitting? = some (k, .registered t) :=
    hs.inEnqueue (by rw [hholder]; rfl)
  have hpending := hp k t (course_of_submitting hs hinside)
  obtain ⟨record, hl, hstate⟩ := Option.map_eq_some_iff.mp hpending
  refine ⟨record, hl, hstate, ?_⟩
  have hmark : s.taskManager.markQueued t =
      (.OK, s.taskManager.store t { record with state := .queued }) := by
    simp [TaskManager.markQueued, TaskManager.mark, hl, hstate]
  simp [enqueueMark, hmark]

theorem enqueueMark_accepting {t : TaskID} {own : List Section} (hc : Accepting k s own)
    (hs : Submitting s) (hp : Awaited s) (hholder : s.holder = some (.enqueueMark k t)) :
    Accepting k (enqueueMark s k t) (own ++ [⟨s, .call .enqueueMark, enqueueMark s k t⟩]) := by
  have hlife := hs.inside (k, .registered t) (by rw [hholder]; rfl)
  have hinside : s.submitting? = some (k, .registered t) :=
    hs.inEnqueue (by rw [hholder]; rfl)
  have hcourse := course_of_submitting hs hinside
  obtain ⟨record, hl, hpending, hstep⟩ := enqueueMark_marks hs hp hholder
  rw [hstep]
  cases hc with
  | registered _ hc hcheck hregister hquiet =>
    rw [hcourse] at hc
    cases hc
    refine .marked ?_ hcheck hregister hquiet ⟨record, hl, hpending, rfl⟩
    simp [course, State.submitting?, LocalSystem.submitting?, Holder.enqueue?, hlife,
      hs.unreturned k _ hinside]
  | checked hlife' =>
    rw [hlife] at hlife'
    cases hlife'
  | outside hc | marked hc | returned hc =>
    rw [hcourse] at hc
    cases hc

theorem enqueuePush_accepting {t : TaskID} {woken : Option Waiter} {sleeping : List Waiter}
    {own : List Section} (hc : Accepting k s own) (hi : Inv s) (hs : Submitting s)
    (hholder : s.holder = some (.enqueuePush k t)) :
    Accepting k (enqueuePush s k t sleeping)
      (own ++ [⟨s, .call (.enqueuePush woken), enqueuePush s k t sleeping⟩]) := by
  have hlife := hs.inside (k, .marked t) (by rw [hholder]; rfl)
  have hinside : s.submitting? = some (k, .marked t) :=
    hs.inEnqueue (by rw [hholder]; rfl)
  have hcourse := course_of_submitting hs hinside
  cases hc with
  | @marked spec handler check register enter mark hc hcheck hregister hquiet hmark =>
    rw [hcourse] at hc
    cases hc
    have hfresh := hi.queueing.limbo spec.id (by rw [hholder]; rfl)
    exact .returned (course_of_returned (Finmap.lookup_insert _))
      (.accepted ⟨check, register, enter, mark,
        ⟨s, .call (.enqueuePush woken), enqueuePush s k spec.id sleeping⟩, by simp, hcheck,
        hregister, hquiet, hmark, hfresh, rfl⟩)
  | checked hlife' =>
    rw [hlife] at hlife'
    cases hlife'
  | outside hc | registered _ hc | returned hc =>
    rw [hcourse] at hc
    cases hc

theorem step_accepting_own {a : Action} (h : step s a = some u) (hi : Inv s) (hs : Submitting s)
    (hg : Gate s) (hp : Awaited s) {own : List Section} (hc : Accepting k s own)
    (hcaller : caller s a = some (.submit k)) : Accepting k u (own ++ [⟨s, a, u⟩]) := by
  -- the owner of `lifecycle_mu_` is the caller
  have owner : ∀ {k' : Nat} {c : Course}, s.submitting? = some (k', c) →
      s.submitting?.map (fun inside => Call.submit inside.1) = some (.submit k) → k' = k := by
    intro k' c hinside hk
    rw [hinside] at hk
    cases hk
    rfl
  cases a with
  | call a =>
    have h : callStep s a = some u := h
    cases a with
    | submitBegin k' spec handler =>
      simp only [caller, Option.some.injEq, Call.submit.injEq] at hcaller
      subst hcaller
      exact submitBegin_accepting hc h
    | submitRegister =>
      simp only [callStep] at h
      split at h
      · rename_i k' spec handler hlife
        obtain rfl := owner (submitting_registering hlife) hcaller
        cases h
        exact submitRegister_accepting hc hs hlife
      · cases h
    | enqueueBegin =>
      simp only [callStep] at h
      split at h
      · rename_i k' t hlife hfree
        obtain rfl := owner (submitting_enqueuing hlife) hcaller
        cases h
        exact enqueueBegin_accepting hc hs hg hlife
      · cases h
    | enqueueMark =>
      simp only [callStep] at h
      split at h
      · rename_i k' t hholder
        obtain rfl := owner (c := .registered t) (hs.inEnqueue (by rw [hholder]; rfl)) hcaller
        cases h
        exact enqueueMark_accepting hc hs hp hholder
      · cases h
    | enqueuePush woken =>
      simp only [callStep] at h
      split at h
      · rename_i k' t hholder
        obtain rfl := owner (c := .marked t) (hs.inEnqueue (by rw [hholder]; rfl)) hcaller
        obtain ⟨sleeping, -, rfl⟩ := Option.map_eq_some_iff.mp h
        exact enqueuePush_accepting hc hi hs hholder
      · cases h
    | cancelBegin | cancelRemove | cancelTask | cancelReturn | drainBegin | drainWait =>
      simp [caller] at hcaller
  | loop | thread | lifecycle | wake => cases hcaller

theorem step_accepting_call {a : Action} (h : step s a = some u) (hi : Inv s) (hs : Submitting s)
    (hg : Gate s) (hp : Awaited s) {own : List Section} (hc : Accepting k s own) :
    Accepting k u (own ++ sectionOf (.submit k) s a) := by
  by_cases hcaller : caller s a = some (.submit k)
  · rw [sectionOf_own h hcaller]
    exact step_accepting_own h hi hs hg hp hc hcaller
  · rw [sectionOf_other hcaller, List.append_nil]
    exact hc.aside h hs hcaller

/-- What holds of every reachable state for `Submit` to be all or nothing. -/
structure Ready (s : State) : Prop where
  inv : Inv s
  submitting : Submitting s
  closing : Closing s
  gate : Gate s
  awaited : Awaited s

theorem ready_initial (workerIds : List WorkerID) (capacity : ResourceSet) (callback : Bool) :
    Ready (.initial workerIds capacity callback) where
  inv := inv_initial workerIds capacity callback
  submitting := submitting_initial workerIds capacity callback
  closing := closing_initial workerIds capacity callback
  gate := gate_initial workerIds capacity callback
  awaited := awaited_initial workerIds capacity callback

theorem step_ready {a : Action} (h : step s a = some u) (hr : Ready s) : Ready u where
  inv := step_inv h hr.inv
  submitting := (step_course h hr.submitting).1
  closing := step_closing h hr.inv hr.submitting hr.closing
  gate := step_gate h hr.inv hr.closing hr.gate
  awaited := step_awaited h hr.inv hr.submitting hr.awaited

theorem accepting_run {workerIds : List WorkerID} {capacity : ResourceSet} {callback : Bool}
    {as : List Action} (h : Run.run step as (.initial workerIds capacity callback) = some s)
    (k : Nat) : Ready s ∧
      Accepting k s (sections (.submit k) as (.initial workerIds capacity callback)) :=
  Run.invariant_observed (I := fun own s => Ready s ∧ Accepting k s own)
    (fun _ _ _ _ hs _ hstep => ⟨step_ready hstep hs.1, step_accepting_call hstep hs.1.inv
      hs.1.submitting hs.1.gate hs.1.awaited hs.2⟩)
    (Run.along_true as _) h ⟨ready_initial workerIds capacity callback, .outside rfl⟩

/-! ## The result -/

/-- A `Submit` that fails has done nothing, and one that succeeds has registered and queued its
task. -/
theorem submit_all_or_nothing {workerIds : List WorkerID} {capacity : ResourceSet}
    {callback : Bool} {as : List Action}
    (h : Run.run step as (.initial workerIds capacity callback) = some s) {k : Nat}
    {status : Status} (hreturned : s.submits.lookup k = some status) :
    (status.ok = false →
      ∀ x ∈ sections (.submit k) as (.initial workerIds capacity callback), x.IsQuiet) ∧
    (status.ok = true → ∃ spec handler,
      Accepts k spec handler (sections (.submit k) as (.initial workerIds capacity callback))) := by
  have hcourse := course_of_returned hreturned
  obtain ⟨hready, hc⟩ := accepting_run h k
  generalize sections (.submit k) as (.initial workerIds capacity callback) = own at hc ⊢
  cases hc with
  | returned hc hresult =>
    rw [hcourse] at hc
    cases hc
    cases hresult with
    | refused hno hquiet =>
      refine ⟨fun _ => hquiet, fun hok => ?_⟩
      rw [hno] at hok
      cases hok
    | accepted haccepts =>
      refine ⟨fun hno => ?_, fun _ => ⟨_, _, haccepts⟩⟩
      cases hno
  | @checked spec handler check hlife =>
    have hinside := submitting_registering hlife
    rw [course_of_submitting hready.submitting hinside] at hcourse
    cases hcourse
  | outside hc | registered _ hc | marked hc =>
    rw [hcourse] at hc
    cases hc

namespace Sample

/-- A task is accepted, and another one is submitted under the same id. -/
def sameId : List Action :=
  start ++ submit 1 (spec 1) none ++
    [.call (.submitBegin 2 (spec 1) handler), .call .submitRegister]

end Sample

theorem submit_all_or_nothing_same_id :
    (∃ spec handler, Accepts 1 spec handler (sections (.submit 1) Sample.sameId Sample.runtime)) ∧
    ∀ x ∈ sections (.submit 2) Sample.sameId Sample.runtime, x.IsQuiet := by
  have hrun : Run.run step Sample.sameId Sample.runtime =
      some (Run.stateAfter step Sample.sameId Sample.runtime) := Run.run_stateAfter (by decide)
  have hfirst : (Run.stateAfter step Sample.sameId Sample.runtime).submits.lookup 1 = some .OK := by
    decide
  have hsecond : (Run.stateAfter step Sample.sameId Sample.runtime).submits.lookup 2 =
      some (.AlreadyExists "Task already registered") := by decide
  exact ⟨(submit_all_or_nothing hrun hfirst).2 rfl, (submit_all_or_nothing hrun hsecond).1 rfl⟩

end LocalSystem

end AgentRuntime
