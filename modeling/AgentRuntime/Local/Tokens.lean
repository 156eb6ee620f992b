import AgentRuntime.Local.Cancellation
import AgentRuntime.Local.Completions

/-!
# Who sets the cancellation tokens

A `Cancel` call is followed by its key, from its snapshot to its return. The token of a task
is set by such a call and by nothing else, a call that returns OK has set it, and
it stays set.
-/
namespace AgentRuntime

namespace LocalSystem

variable {s u : State} {k : Nat}

/-! ## The tokens -/

/-- The token of the task is set. -/
def State.token (s : State) (t : TaskID) : Bool := (s.record t).any TaskRecord.cancelRequested

theorem token_of_record {t : TaskID} {record : TaskRecord} (hl : s.record t = some record) :
    s.token t = record.cancelRequested := by
  rw [State.token, hl, Option.any_some]

theorem token_congr (h : u.taskManager = s.taskManager) : u.token = s.token := by
  funext t
  rw [State.token, State.token, State.record, State.record, h]

theorem token_store {id : TaskID} {new : TaskRecord}
    (h : u.taskManager = s.taskManager.store id new) (t : TaskID) :
    u.token t = if t = id then new.cancelRequested else s.token t := by
  rw [State.token, State.token, State.record, State.record, h, TaskManager.lookup_store]
  split <;> rfl

/-- A record is replaced by one with the same token, or is new and has it unset. -/
theorem token_kept {id : TaskID} {new : TaskRecord}
    (h : u.taskManager = s.taskManager.store id new) (hsame : new.cancelRequested = s.token id) :
    u.token = s.token := by
  funext t
  rw [token_store h]
  split
  · rename_i heq
    rw [heq, hsame]
  · rfl

theorem loopEffect_token {evs : List Event} (h : LoopEffect s evs u) : u.token = s.token := by
  cases h with
  | mark _ _ hrecord _ => exact token_kept rfl (token_of_record hrecord).symm
  | rest | peek | spec | observe | choose | skip | select | giveUp | reserve | acquire | handler
  | token | pop | dispatch => exact token_congr rfl

theorem threadEffect_token {w : WorkerID} {evs : List Event} (h : ThreadEffect s w evs u) :
    u.token = s.token := by
  cases h with
  | markRunning _ hrecord _ => exact token_kept rfl (token_of_record hrecord).symm
  | complete _ _ hrecord _ _ => exact token_kept rfl (token_of_record hrecord).symm
  | take | leave | invoke | leaveHandler | reported | becomeIdle | erase | eraseNone | release
  | wake | announce => exact token_congr rfl

theorem register_token (s : State) (spec : TaskSpec) (handler : TaskHandler)
    (hu : u.taskManager = (s.taskManager.register spec handler).2) : u.token = s.token := by
  obtain ⟨status, -, heq⟩ | ⟨hnew, -, heq⟩ := s.taskManager.register_cases spec handler
  · exact token_congr (by rw [hu, heq])
  · refine token_kept (by rw [hu, heq]) ?_
    rw [State.token, State.record, hnew]
    rfl

theorem markQueued_token (s : State) (t : TaskID)
    (hu : u.taskManager = (s.taskManager.markQueued t).2) : u.token = s.token := by
  obtain ⟨status, -, heq, -⟩ | ⟨record, hl, -, heq⟩ :=
    s.taskManager.mark_cases t "task is not registered" .queued (fun record => record)
  · exact token_congr (by rw [hu, TaskManager.markQueued, heq])
  · have hstore : u.taskManager = s.taskManager.store t { record with state := .queued } := by
      rw [hu, TaskManager.markQueued, heq]
    exact token_kept hstore (token_of_record hl).symm

/-- A call sets a token in the one section in which it calls the task manager. -/
theorem callStep_token {a : CallAction} (h : callStep s a = some u) (ha : a ≠ .cancelTask) :
    u.token = s.token := by
  cases a with
  | cancelTask => exact absurd rfl ha
  | submitRegister =>
    simp only [callStep] at h
    split at h
    · rename_i k spec handler hlife
      cases h
      refine register_token s spec handler ?_
      simp only [submitRegister]
      split <;> rfl
    · cases h
  | enqueueMark =>
    simp only [callStep] at h
    split at h
    · rename_i k t hholder
      cases h
      refine markQueued_token s t ?_
      simp only [enqueueMark]
      split <;> rfl
    · cases h
  | submitBegin | enqueueBegin | enqueuePush | cancelBegin | cancelRemove | cancelReturn
  | drainBegin | drainWait =>
    refine token_congr ?_
    cases callMove h <;> rfl

theorem step_token {a : Action} (h : step s a = some u) (hi : Inv s) (ha : a ≠ .call .cancelTask) :
    u.token = s.token := by
  cases a with
  | call a => exact callStep_token h fun heq => ha (by rw [heq])
  | loop a => exact loopEffect_token (loopEffect h hi.unfailing)
  | thread w a => exact threadEffect_token (threadEffect h hi.unfailing)
  | lifecycle a => exact token_congr (lifecycleEffect h hi.stage).taskManager
  | wake waiter =>
    obtain rfl := step_wake h
    rfl

/-! ## The course of a call -/

/-- How far the `Cancel` call with a given key is. -/
inductive Asking where
  | outside
  | inside (t : TaskID)
  /-- The task manager has set the token. -/
  | signalled
  | returned (status : Status)

def Holder.asking? : Option Holder → Option (Nat × Asking)
  | some (.cancelRemove k t) | some (.cancelTask k t _) => some (k, .inside t)
  | some (.cancelReport k _ _) => some (k, .signalled)
  | _ => none

def asking (s : State) (k : Nat) : Asking :=
  match s.cancels.lookup k with
  | some status => .returned status
  | none =>
    match Holder.asking? s.holder with
    | some (k', x) => if k' = k then x else .outside
    | none => .outside

theorem cancel?_asking (holder : Option Holder) :
    Holder.cancel? holder = (Holder.asking? holder).map Prod.fst := by
  cases holder with
  | none => rfl
  | some holder => cases holder <;> rfl

theorem asking_of_holder {x : Asking} (hnew : s.cancels.lookup k = none)
    (hholder : Holder.asking? s.holder = some (k, x)) : asking s k = x := by
  simp [asking, hnew, hholder]

theorem asking_of_returned {status : Status} (h : s.cancels.lookup k = some status) :
    asking s k = .returned status := by
  simp [asking, h]

theorem asking_of_outside (hnew : s.cancels.lookup k = none)
    (hout : Holder.cancel? s.holder ≠ some k) : asking s k = .outside := by
  rw [cancel?_asking] at hout
  simp only [asking, hnew]
  split
  · rename_i k' x hholder
    rw [if_neg]
    rintro rfl
    exact hout (by rw [hholder]; rfl)
  · rfl

theorem Aside.asking (h : Aside k s u) : asking u k = LocalSystem.asking s k := by
  cases hnew : s.cancels.lookup k with
  | some status =>
    rw [asking_of_returned hnew, asking_of_returned (h.cancels.trans hnew)]
  | none =>
    have hnew' := h.cancels.trans hnew
    by_cases hs : Holder.cancel? s.holder = some k
    · simp only [LocalSystem.asking, hnew, hnew', h.holder (.inl hs)]
    · have hu : Holder.cancel? u.holder ≠ some k := fun hu => hs (h.holder (.inr hu) ▸ hu)
      rw [asking_of_outside hnew hs, asking_of_outside hnew' hu]

/-- The call that holds `mu_` has not returned. -/
def Unreturned (s : State) : Prop :=
  ∀ k, Holder.cancel? s.holder = some k → s.cancels.lookup k = none

/-- One step of a call. -/
inductive AskingStep (s : State) (a : Action) (u : State) (k : Nat) : Asking → Asking → Prop where
  | stay (x) (hother : ∀ t, a ≠ .call (.cancelBegin k t)) : AskingStep s a u k x x
  | begin {t} (ha : a = .call (.cancelBegin k t)) : AskingStep s a u k .outside (.inside t)
  | refuseBegin {t status} (ha : a = .call (.cancelBegin k t)) (hno : status.ok = false) :
      AskingStep s a u k .outside (.returned status)
  | refuse {t status} (hno : status.ok = false) : AskingStep s a u k (.inside t) (.returned status)
  | signal {t} (htoken : u.token t = true) : AskingStep s a u k (.inside t) .signalled
  | return : AskingStep s a u k .signalled (.returned .OK)

/-- The sections of the call itself, in which `mu_` is held by it or taken. -/
theorem cancelBegin_asking {t : TaskID} (h : callStep s (.cancelBegin k t) = some u) :
    AskingStep s (.call (.cancelBegin k t)) u k (asking s k) (asking u k) := by
  simp only [callStep] at h
  split at h
  · rename_i hfree hnew
    cases h
    rw [asking_of_outside hnew (by simp [hfree, Holder.cancel?])]
    simp only [cancelBegin]
    split
    · rename_i status hmissing
      have hno : status.ok = false := by
        simp only [TaskManager.getSnapshot, TaskManager.get] at hmissing
        split at hmissing
        · cases hmissing
          rfl
        · cases hmissing
      rw [asking_of_returned (Finmap.lookup_insert _)]
      exact .refuseBegin rfl hno
    · split
      · have hnext : asking { s with holder := some (.cancelRemove k t) } k = .inside t :=
          asking_of_holder hnew rfl
        rw [hnext]
        exact .begin rfl
      · have hnext : asking { s with holder := some (.cancelTask k t false) } k = .inside t :=
          asking_of_holder hnew rfl
        rw [hnext]
        exact .begin rfl
  · cases h

theorem cancelRemove_asking (hun : Unreturned s) {t : TaskID}
    (hholder : s.holder = some (.cancelRemove k t)) :
    AskingStep s (.call .cancelRemove) (cancelRemove s k t) k (asking s k)
      (asking (cancelRemove s k t) k) := by
  have hnew := hun k (by rw [hholder]; rfl)
  rw [asking_of_holder hnew (by rw [hholder]; rfl)]
  simp only [cancelRemove]
  split
  · have hnext : asking { s with
        queue := (s.queue.remove t).2, holder := some (.cancelTask k t true) } k = .inside t :=
      asking_of_holder hnew rfl
    rw [hnext]
    exact .stay _ (by simp)
  · rename_i hno
    rw [asking_of_returned (Finmap.lookup_insert _)]
    exact .refuse (Bool.eq_false_iff.mpr hno)

/-- The task manager is called: it refuses, or it sets the token. -/
theorem cancelTask_cases (s : State) (k : Nat) (t : TaskID) (queued : Bool) :
    (∃ status, status.ok = false ∧ cancelTask s k t queued = s.cancelReturns k status) ∨
    ∃ new completion, new.cancelRequested = true ∧ cancelTask s k t queued = { s with
      taskManager := s.taskManager.store t new
      holder := some (.cancelReport k queued completion) } := by
  obtain ⟨status, hno, heq, -⟩ | ⟨record, -, -, heq⟩ | ⟨record, -, -, heq⟩ :=
    s.taskManager.cancel_cases t
  · exact .inl ⟨status, hno, by simp [cancelTask, heq, hno]⟩
  · exact .inr ⟨_, _, rfl, by simp only [cancelTask, heq]; rfl⟩
  · exact .inr ⟨_, _, rfl, by simp only [cancelTask, heq]; rfl⟩

theorem cancelTask_token (s : State) (k : Nat) (t : TaskID) (queued : Bool) :
    (cancelTask s k t queued).token = s.token ∨
      ∀ t', (cancelTask s k t queued).token t' = if t' = t then true else s.token t' := by
  obtain ⟨status, -, heq⟩ | ⟨new, completion, hset, heq⟩ := cancelTask_cases s k t queued
  · exact .inl (token_congr (by rw [heq]; rfl))
  · refine .inr fun t' => ?_
    rw [token_store (by rw [heq]) t', hset]

theorem cancelTask_asking (hun : Unreturned s) {t : TaskID} {queued : Bool}
    (hholder : s.holder = some (.cancelTask k t queued)) :
    AskingStep s (.call .cancelTask) (cancelTask s k t queued) k (asking s k)
      (asking (cancelTask s k t queued) k) := by
  have hnew := hun k (by rw [hholder]; rfl)
  rw [asking_of_holder hnew (by rw [hholder]; rfl)]
  obtain ⟨status, hno, heq⟩ | ⟨new, completion, hset, heq⟩ := cancelTask_cases s k t queued
  · rw [heq, asking_of_returned (Finmap.lookup_insert _)]
    exact .refuse hno
  · have htoken : (cancelTask s k t queued).token t = true := by
      rw [token_store (by rw [heq]) t, if_pos rfl, hset]
    have hnext : asking (cancelTask s k t queued) k = .signalled := by
      rw [heq]
      exact asking_of_holder hnew rfl
    rw [hnext]
    exact .signal htoken

theorem cancelReturn_asking (hun : Unreturned s) {woken : Option Waiter} {queued : Bool}
    {completion : Option TaskCompletion}
    (hholder : s.holder = some (.cancelReport k queued completion))
    (h : callStep s (.cancelReturn woken) = some u) :
    AskingStep s (.call (.cancelReturn woken)) u k (asking s k) (asking u k) := by
  have hnew := hun k (by rw [hholder]; rfl)
  have hlookup : u.cancels.lookup k = some .OK := by
    cases queued with
    | true =>
      simp only [callStep, hholder] at h
      obtain ⟨sleeping, -, rfl⟩ := Option.map_eq_some_iff.mp h
      exact Finmap.lookup_insert _
    | false =>
      simp only [callStep, hholder] at h
      cases h
      exact Finmap.lookup_insert _
  rw [asking_of_holder hnew (by rw [hholder]; rfl), asking_of_returned hlookup]
  exact .return

theorem step_asking {a : Action} (h : step s a = some u) (hun : Unreturned s) (k : Nat) :
    AskingStep s a u k (asking s k) (asking u k) := by
  by_cases hcaller : caller s a = some (.cancel k)
  · cases a with
    | call a =>
      cases a with
      | cancelBegin k' t =>
        simp only [caller, Option.some.injEq, Call.cancel.injEq] at hcaller
        subst hcaller
        exact cancelBegin_asking h
      | cancelRemove =>
        simp only [caller, Option.map_eq_some_iff, Call.cancel.injEq, exists_eq_right] at hcaller
        simp only [step, callStep] at h
        split at h
        · rename_i k' t hholder
          rw [hholder] at hcaller
          cases hcaller
          cases h
          exact cancelRemove_asking hun hholder
        · cases h
      | cancelTask =>
        simp only [caller, Option.map_eq_some_iff, Call.cancel.injEq, exists_eq_right] at hcaller
        simp only [step, callStep] at h
        split at h
        · rename_i k' t queued hholder
          rw [hholder] at hcaller
          cases hcaller
          cases h
          exact cancelTask_asking hun hholder
        · cases h
      | cancelReturn woken =>
        simp only [caller, Option.map_eq_some_iff, Call.cancel.injEq, exists_eq_right] at hcaller
        cases hholder : s.holder with
        | none => simp [hholder, Holder.cancel?] at hcaller
        | some holder =>
          cases holder with
          | cancelReport k' queued completion =>
            rw [hholder] at hcaller
            cases hcaller
            exact cancelReturn_asking hun hholder h
          | cancelRemove | cancelTask | scheduling | enqueueMark | enqueuePush =>
            simp [step, callStep, hholder] at h
      | submitBegin | submitRegister | enqueueBegin | enqueueMark | enqueuePush | drainBegin
      | drainWait => simp [caller] at hcaller
    | loop | thread | lifecycle | wake => cases hcaller
  · rw [(step_aside h hcaller).asking]
    refine .stay _ fun t heq => hcaller ?_
    rw [heq]
    rfl

/-- A call that begins has not begun before. -/
theorem asking_of_begin {t : TaskID} (h : step s (.call (.cancelBegin k t)) = some u) :
    asking s k = .outside := by
  simp only [step, callStep] at h
  split at h
  · rename_i hfree hnew
    exact asking_of_outside hnew (by simp [hfree, Holder.cancel?])
  · cases h

theorem callStep_unreturned {a : CallAction} (h : callStep s a = some u) (hun : Unreturned s)
    (hk : Holder.cancel? u.holder = some k) : u.cancels.lookup k = none := by
  by_cases hcaller : caller s (.call a) = some (.cancel k)
  · cases callMove h with
    | notFound _ hfree => simp [hfree, Holder.cancel?] at hk
    | drained ha | drainSleeps ha => obtain rfl | rfl := ha <;> cases hcaller
    | beginRemove hfree | beginCancel hfree =>
      simp only [caller, Option.some.injEq, Call.cancel.injEq] at hcaller
      subst hcaller
      simp only [callStep, hfree] at h
      split at h
      · rename_i hnew
        exact hnew
      · cases h
    | remove hholder | cancel _ _ hholder =>
      exact hun k (by rw [hholder]; exact hk)
    | refuseRemove | refuseCancel | notify | cancelled =>
      simp [State.cancelReturns, Holder.cancel?] at hk
    | refuseChecks | passChecks | refuseRegister | register | refuseEnqueue | enterEnqueue
    | refuseMark | markQueued | push | drainRefused => simp [caller] at hcaller
  · have ha := callStep_aside h hcaller
    rw [ha.cancels]
    exact hun k (ha.holder (.inr hk) ▸ hk)

theorem step_unreturned {a : Action} (h : step s a = some u) (hun : Unreturned s) :
    Unreturned u := by
  intro k hk
  cases a with
  | call a => exact callStep_unreturned h hun hk
  | loop | thread | lifecycle | wake =>
    have ha := step_aside (k := k) h (by simp [caller])
    rw [ha.cancels]
    exact hun k (ha.holder (.inr hk) ▸ hk)

/-- What is set stays set; what is new was set by a call that had `mu_`. -/
theorem step_token_cases {a : Action} (h : step s a = some u) (hi : Inv s) (hun : Unreturned s) :
    u.token = s.token ∨ ∃ k t, asking s k = .inside t ∧
      ∀ t', u.token t' = if t' = t then true else s.token t' := by
  by_cases ha : a = .call .cancelTask
  · subst ha
    simp only [step, callStep] at h
    split at h
    · rename_i k t queued hholder
      cases h
      obtain hsame | hset := cancelTask_token s k t queued
      · exact .inl hsame
      · have hnew := hun k (by rw [hholder]; rfl)
        exact .inr ⟨k, t, asking_of_holder hnew (by rw [hholder]; rfl), hset⟩
    · cases h
  · exact .inl (step_token h hi ha)

theorem token_after {a : Action} (h : step s a = some u) (hi : Inv s) (hun : Unreturned s)
    {t : TaskID} (ht : s.token t = true) : u.token t = true := by
  obtain hsame | ⟨k, t', -, hset⟩ := step_token_cases h hi hun
  · rw [hsame]
    exact ht
  · rw [hset]
    split
    · rfl
    · exact ht

/-! ## The invariant -/

/-- The calls of `Cancel` that a step begins, with their tasks. -/
def asks : Action → List (Nat × TaskID)
  | .call (.cancelBegin k t) => [(k, t)]
  | _ => []

/-- The call is for this task and no other. -/
def AskedFor (asked : List (Nat × TaskID)) (k : Nat) (t : TaskID) : Prop :=
  ∀ t', (k, t') ∈ asked ↔ t' = t

/-- What has been asked in a call, and whether the token is set. -/
def AskingOk (asked : List (Nat × TaskID)) (s : State) (k : Nat) : Asking → Prop
  | .outside => ∀ t, (k, t) ∉ asked
  | .inside t => AskedFor asked k t
  | .signalled => ∃ t, AskedFor asked k t ∧ s.token t = true
  | .returned status => ∃ t, AskedFor asked k t ∧ (status.ok = true → s.token t = true)

/-- Tokens are set by the calls of `Cancel` that have begun, and by those that return OK. -/
structure Asked (asked : List (Nat × TaskID)) (s : State) : Prop where
  unreturned : Unreturned s
  calls : ∀ k, AskingOk asked s k (asking s k)
  tokens : ∀ t, s.token t = true → ∃ k, (k, t) ∈ asked

theorem asked_initial (workerIds : List WorkerID) (capacity : ResourceSet) (callback : Bool) :
    Asked [] (.initial workerIds capacity callback) where
  unreturned k hk := by simp [State.initial, Holder.cancel?] at hk
  calls k t hmem := by cases hmem
  tokens t ht := by simp [State.token, State.record, State.initial] at ht

variable {asked : List (Nat × TaskID)}

theorem AskedFor.append {new : List (Nat × TaskID)} {t : TaskID} (h : AskedFor asked k t)
    (hnew : ∀ t', (k, t') ∉ new) : AskedFor (asked ++ new) k t := by
  intro t'
  rw [List.mem_append, or_iff_left (hnew t')]
  exact h t'

theorem askedFor_new {t : TaskID} (h : ∀ t', (k, t') ∉ asked) : AskedFor (asked ++ [(k, t)]) k t := by
  intro t'
  rw [List.mem_append, or_iff_right (h t')]
  simp

/-- A step that does not begin the call leaves what has been asked in it. -/
theorem AskingOk.append {new : List (Nat × TaskID)} {x : Asking} (h : AskingOk asked s k x)
    (hnew : ∀ t, (k, t) ∉ new) (htoken : ∀ t, s.token t = true → u.token t = true) :
    AskingOk (asked ++ new) u k x := by
  cases x with
  | outside =>
    intro t hmem
    obtain hmem | hmem := List.mem_append.mp hmem
    · exact h t hmem
    · exact hnew t hmem
  | inside t => exact AskedFor.append h hnew
  | signalled =>
    obtain ⟨t, hfor, ht⟩ := h
    exact ⟨t, hfor.append hnew, htoken t ht⟩
  | returned status =>
    obtain ⟨t, hfor, ht⟩ := h
    exact ⟨t, hfor.append hnew, fun hok => htoken t (ht hok)⟩

theorem mem_asks {a : Action} {t : TaskID} (h : (k, t) ∈ asks a) : a = .call (.cancelBegin k t) := by
  unfold asks at h
  split at h
  · cases List.mem_singleton.mp h
    rfl
  · cases h

theorem Asked.step {a : Action} (ha : Asked asked s) (hi : Inv s) (h : step s a = some u) :
    Asked (asked ++ asks a) u where
  unreturned := step_unreturned h ha.unreturned
  calls k := by
    have hcall := ha.calls k
    have htoken : ∀ t, s.token t = true → u.token t = true :=
      fun t => token_after h hi ha.unreturned
    have hlater : asking s k ≠ .outside → ∀ t, (k, t) ∉ asks a := by
      intro hbegun t hmem
      rw [mem_asks hmem] at h
      exact hbegun (asking_of_begin h)
    have hstep := step_asking h ha.unreturned k
    generalize asking s k = x at hcall hstep hlater
    generalize asking u k = y at hstep
    cases hstep with
    | stay _ hother => exact hcall.append (fun t hmem => hother t (mem_asks hmem)) htoken
    | begin hbegin =>
      rw [hbegin]
      exact askedFor_new hcall
    | refuseBegin hbegin hno =>
      rw [hbegin]
      exact ⟨_, askedFor_new hcall, fun hok => by rw [hno] at hok; cases hok⟩
    | refuse hno =>
      have hfor : AskedFor asked k _ := hcall
      exact ⟨_, hfor.append (hlater (by simp)), fun hok => by rw [hno] at hok; cases hok⟩
    | signal hset =>
      have hfor : AskedFor asked k _ := hcall
      exact ⟨_, hfor.append (hlater (by simp)), hset⟩
    | «return» =>
      obtain ⟨t, hfor, ht⟩ := hcall
      exact ⟨t, hfor.append (hlater (by simp)), fun _ => htoken t ht⟩
  tokens t ht := by
    obtain hsame | ⟨k, t', hinside, hset⟩ := step_token_cases h hi ha.unreturned
    · rw [hsame] at ht
      obtain ⟨k, hmem⟩ := ha.tokens t ht
      exact ⟨k, List.mem_append_left _ hmem⟩
    · rw [hset] at ht
      split at ht
      · rename_i heq
        have hcall := ha.calls k
        rw [hinside] at hcall
        exact ⟨k, List.mem_append_left _ ((hcall t).mpr heq)⟩
      · obtain ⟨k, hmem⟩ := ha.tokens t ht
        exact ⟨k, List.mem_append_left _ hmem⟩

end LocalSystem

end AgentRuntime
