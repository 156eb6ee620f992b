import AgentRuntime.Service.Replies
import AgentRuntime.Service.Requests

/-!
# Which execution a cancellation reaches

`CancelTask` reads the ledger and then cancels by TaskID alone. What it reads
is provisional while the submission of the execution is under way, and the
task may by then be that of another execution.
-/
namespace AgentRuntime

namespace WorkerService

open LocalSystem (course provisional refuses)

/-! ## The cancellations of a run -/

inductive CancelEvent where
  /-- The request names a task and an execution. -/
  | named (n : Nat) (t : TaskID) (e : ExecutionID)
  /-- The request has passed the check of the ledger. -/
  | approved (n : Nat) (t : TaskID) (e : ExecutionID)
  /-- The request calls `Runtime::Cancel`. -/
  | called (n : Nat) (t : TaskID)
  deriving DecidableEq

def cancelEvents (s : State) : Action → List CancelEvent
  | .cancelBegin n taskId executionId =>
    match cancelDecoded taskId executionId with
    | .checking t e => [.named n t e]
    | _ => []
  | .cancelCheck n =>
    match s.cancels.lookup n with
    | some (.checking t e) =>
      match cancelChecked s t e with
      | .approved _ => [.approved n t e]
      | _ => []
    | _ => []
  | .cancelRuntime n =>
    match s.cancels.lookup n with
    | some (.approved t) => [.called n t]
    | _ => []
  | _ => []

/-- The request names this task and execution and no others. -/
def Names (seen : List CancelEvent) (n : Nat) (t : TaskID) (e : ExecutionID) : Prop :=
  ∀ t' e', .named n t' e' ∈ seen ↔ t' = t ∧ e' = e

/-- The task is submitted under the execution by a request whose `Submit` has not been refused,
and its record, if there is one, was made by that execution. -/
structure Reached (s : State) (t : TaskID) (e : ExecutionID) : Prop where
  submitted : ∃ m l, s.launches.lookup m = some l ∧ l.isClaimer = true ∧ l.executionId = e ∧
    l.spec.id = t ∧ (provisional s.runtime m).ok = true
  own : ∀ m e', identity? s m = some (e', t) → (course s.runtime m).isRegistered = true → e' = e

/-- Whatever request has called `Runtime::Cancel` reaches the execution it names. -/
def CancelsReachOwn (seen : List CancelEvent) (s : State) : Prop :=
  ∀ n t, .called n t ∈ seen → ∃ e, Names seen n t e ∧ Reached s t e

/-! ## The condition -/

/-- The execution and the task that a step of `Submit` makes a record for: the section that
registers the task, unless it refuses it. -/
def registering (s : State) : Action → Option (ExecutionID × TaskID)
  | .runtime (.call .submitRegister) =>
    if refuses s.runtime .submitRegister then none
    else s.runtime.submitting?.bind fun call => identity? s call.1
  | _ => none

/-- The record of the task was made by another execution. -/
def isForeign (s : State) (t : TaskID) (e : ExecutionID) (n : Nat) (l : Launch) : Bool :=
  decide (l.spec.id = t) && decide (l.executionId ≠ e) && (course s.runtime n).isRegistered

/-- A cancellation that names the execution has passed the check. -/
def approvedFor (seen : List CancelEvent) (e : ExecutionID) : Bool :=
  seen.any fun | .approved _ _ e' => e' = e | _ => false

/-- A cancellation of the task that names another execution has passed the check. -/
def approvedAgainst (seen : List CancelEvent) (e : ExecutionID) (t : TaskID) : Bool :=
  seen.any fun | .approved _ t' e' => t' = t && e' ≠ e | _ => false

/-- A cancellation passes the check neither between the refusal of its execution and its entry
in the ledger nor when another execution has made the task's record; and once it has passed,
its execution is not refused and no other execution makes the record. -/
def cancelsSettled (h : List CancelEvent × State) (a : Action) : Bool :=
  (match a with
  | .cancelCheck n =>
    match h.2.cancels.lookup n with
    | some (.checking t e) =>
      match cancelChecked h.2 t e with
      | .approved _ =>
        !anyLaunch h.2 (isRefusalOf h.2 e) && !anyLaunch h.2 (isForeign h.2 t e)
      | _ => true
    | _ => true
  | _ => true) &&
  (refusing h.2 a).all (fun e => !approvedFor h.1 e) &&
  (registering h.2 a).all (fun made => !approvedAgainst h.1 made.1 made.2)

variable {s u : State} {a : Action} {seen : List CancelEvent} {n : Nat} {t : TaskID}
  {e : ExecutionID}

/-- A step is seen as one event of a cancellation at most. -/
theorem cancelEvents_cases (s : State) (a : Action) : cancelEvents s a = [] ∨
    (∃ n taskId executionId t e, a = .cancelBegin n taskId executionId ∧
      cancelDecoded taskId executionId = .checking t e ∧ cancelEvents s a = [.named n t e]) ∨
    (∃ n t e t', a = .cancelCheck n ∧ s.cancels.lookup n = some (.checking t e) ∧
      cancelChecked s t e = .approved t' ∧ cancelEvents s a = [.approved n t e]) ∨
    ∃ n t, a = .cancelRuntime n ∧ s.cancels.lookup n = some (.approved t) ∧
      cancelEvents s a = [.called n t] := by
  cases a with
  | cancelBegin n taskId executionId =>
    simp only [cancelEvents]
    split
    · rename_i t e hdecoded
      exact .inr (.inl ⟨n, taskId, executionId, t, e, rfl, hdecoded, rfl⟩)
    · exact .inl rfl
  | cancelCheck n =>
    simp only [cancelEvents]
    split
    · rename_i t e hphase
      split
      · rename_i t' hchecked
        exact .inr (.inr (.inl ⟨n, t, e, t', rfl, hphase, hchecked, rfl⟩))
      · exact .inl rfl
    · exact .inl rfl
  | cancelRuntime n =>
    simp only [cancelEvents]
    split
    · rename_i t hphase
      exact .inr (.inr (.inr ⟨n, t, rfl, hphase, rfl⟩))
    · exact .inl rfl
  | _ => exact .inl rfl

theorem named_of_mem (h : .named n t e ∈ cancelEvents s a) : ∃ taskId executionId,
    a = .cancelBegin n taskId executionId ∧ cancelDecoded taskId executionId = .checking t e := by
  obtain he | ⟨_, taskId, executionId, _, _, rfl, hdecoded, he⟩ | ⟨_, _, _, _, -, -, -, he⟩ |
    ⟨_, _, -, -, he⟩ := cancelEvents_cases s a <;> rw [he] at h
  · cases h
  · cases List.mem_singleton.mp h
    exact ⟨taskId, executionId, rfl, hdecoded⟩
  · cases List.mem_singleton.mp h
  · cases List.mem_singleton.mp h

theorem approved_of_mem (h : .approved n t e ∈ cancelEvents s a) :
    a = .cancelCheck n ∧ s.cancels.lookup n = some (.checking t e) ∧
      ∃ t', cancelChecked s t e = .approved t' := by
  obtain he | ⟨_, _, _, _, _, -, -, he⟩ | ⟨_, _, _, t', rfl, hphase, hchecked, he⟩ |
    ⟨_, _, -, -, he⟩ := cancelEvents_cases s a <;> rw [he] at h
  · cases h
  · cases List.mem_singleton.mp h
  · cases List.mem_singleton.mp h
    exact ⟨rfl, hphase, t', hchecked⟩
  · cases List.mem_singleton.mp h

theorem called_of_mem (h : .called n t ∈ cancelEvents s a) :
    a = .cancelRuntime n ∧ s.cancels.lookup n = some (.approved t) := by
  obtain he | ⟨_, _, _, _, _, -, -, he⟩ | ⟨_, _, _, _, -, -, -, he⟩ | ⟨_, _, rfl, hphase, he⟩ :=
    cancelEvents_cases s a <;> rw [he] at h
  · cases h
  · cases List.mem_singleton.mp h
  · cases List.mem_singleton.mp h
  · cases List.mem_singleton.mp h
    exact ⟨rfl, hphase⟩

/-- The check passes for the task of an execution that the ledger has as admitted. -/
theorem cancelChecked_approved {t' : TaskID} (h : cancelChecked s t e = .approved t') :
    t' = t ∧ ∃ existing, s.executions.lookup e = some existing ∧ existing.taskId = t ∧
      existing.admissionStatus.ok = true := by
  simp only [cancelChecked] at h
  cases hl : s.executions.lookup e with
  | none => simp [hl] at h
  | some existing =>
    simp only [hl] at h
    split_ifs at h with hother hno
    cases h
    exact ⟨rfl, existing, rfl, not_not.mp hother, by simpa using hno⟩

/-! ## The requests -/

/-- What a step does to the cancellation requests. -/
inductive CancelMove (s : State) (a : Action) (u : State) : Prop where
  | other (hcancels : u.cancels = s.cancels) (hevents : cancelEvents s a = [])
  | begun (n : Nat) (taskId executionId : ByteString) (ha : a = .cancelBegin n taskId executionId)
      (hnew : s.cancels.lookup n = none)
      (hu : u = s.setCancel n (cancelDecoded taskId executionId))
  | checked (n : Nat) (t : TaskID) (e : ExecutionID) (ha : a = .cancelCheck n)
      (hphase : s.cancels.lookup n = some (.checking t e))
      (hu : u = s.setCancel n (cancelChecked s t e))
  | called (n : Nat) (t : TaskID) (ha : a = .cancelRuntime n)
      (hphase : s.cancels.lookup n = some (.approved t))
      (hcancels : u.cancels = s.cancels.insert n (.cancelling t))
  | replied (n : Nat) (t : TaskID) (status : Status) (ha : a = .cancelReply n)
      (hphase : s.cancels.lookup n = some (.cancelling t))
      (hu : u = s.setCancel n (.replied status))

theorem cancelMove (h : step s a = some u) : CancelMove s a u := by
  cases a with
  | launchBegin n task =>
    obtain ⟨_, _, _, -, rfl⟩ | ⟨_, -, rfl⟩ := launchBegin_cases h <;> exact .other rfl rfl
  | launchClaim n =>
    simp only [step] at h
    split at h
    · split at h
      · cases h
        simp only [launchClaim]
        split
        · split <;> exact .other rfl rfl
        · exact .other rfl rfl
      · cases h
    · cases h
  | launchSubmit n =>
    simp only [step] at h
    split at h
    · split at h
      · obtain ⟨runtime, -, rfl⟩ := Option.map_eq_some_iff.mp h
        exact .other rfl rfl
      · cases h
    · cases h
  | launchStore n =>
    simp only [step] at h
    split at h
    · split at h
      · cases h
        simp only [launchStore]
        split <;> exact .other rfl rfl
      · cases h
    · cases h
  | cancelBegin n taskId executionId =>
    simp only [step] at h
    split at h
    · rename_i hnew
      cases h
      exact .begun n taskId executionId rfl hnew rfl
    · cases h
  | cancelCheck n =>
    simp only [step] at h
    split at h
    · rename_i t e hphase _
      cases h
      exact .checked n t e rfl hphase rfl
    · cases h
  | cancelRuntime n =>
    simp only [step] at h
    split at h
    · rename_i t hphase
      obtain ⟨runtime, -, rfl⟩ := Option.map_eq_some_iff.mp h
      exact .called n t rfl hphase rfl
    · cases h
  | cancelReply n =>
    simp only [step] at h
    split at h
    · rename_i t status hphase _
      cases h
      exact .replied n t status rfl hphase rfl
    · cases h
  | callback r =>
    simp only [step] at h
    split at h
    · split at h
      · cases h
      · cases h
        simp only [callback]
        split <;> exact .other rfl rfl
    · cases h
  | callbackReturn r =>
    simp only [step] at h
    split at h
    · cases h
      exact .other rfl rfl
    · cases h
  | runtime b =>
    simp only [step, runtimeStep] at h
    split at h
    · cases h
    · split at h
      · obtain ⟨runtime, -, rfl⟩ := Option.map_eq_some_iff.mp h
        exact .other rfl rfl
      · split at h
        · obtain ⟨runtime, -, rfl⟩ := Option.map_eq_some_iff.mp h
          exact .other rfl rfl
        · cases h

theorem cancelDecoded_cases (taskId executionId : ByteString) :
    (∃ status, cancelDecoded taskId executionId = .replied status) ∨
      ∃ t e, cancelDecoded taskId executionId = .checking t e := by
  simp only [cancelDecoded]
  split
  · exact .inl ⟨_, rfl⟩
  · split
    · exact .inl ⟨_, rfl⟩
    · exact .inr ⟨_, _, rfl⟩

theorem cancelChecked_cases (s : State) (t : TaskID) (e : ExecutionID) :
    (∃ status, cancelChecked s t e = .replied status) ∨ cancelChecked s t e = .approved t := by
  simp only [cancelChecked]
  split
  · exact .inl ⟨_, rfl⟩
  · split
    · exact .inl ⟨_, rfl⟩
    · split
      · exact .inl ⟨_, rfl⟩
      · exact .inr rfl

/-- What has been seen of a request in each of its phases. -/
def PhaseOk (seen : List CancelEvent) (n : Nat) : Option CancelPhase → Prop
  | none => ∀ t e, .named n t e ∉ seen
  | some (.checking t e) => Names seen n t e
  | some (.approved t) => ∃ e, Names seen n t e ∧ .approved n t e ∈ seen
  | some (.cancelling _) | some (.replied _) => True

structure Tracked (seen : List CancelEvent) (s : State) : Prop where
  phases : ∀ n, PhaseOk seen n (s.cancels.lookup n)
  called : ∀ n t, .called n t ∈ seen → ∃ e, Names seen n t e ∧ .approved n t e ∈ seen

theorem Names.append {new : List CancelEvent} (h : Names seen n t e)
    (hnew : ∀ t e, .named n t e ∉ new) : Names (seen ++ new) n t e := by
  intro t' e'
  simp [hnew t' e', h t' e']

theorem names_of_named (h : ∀ t e, .named n t e ∉ seen) :
    Names (seen ++ [.named n t e]) n t e := by
  intro t' e'
  simp [h t' e']

/-- A request is named once. -/
theorem Tracked.names (ht : Tracked seen s) (h : step s a = some u) (hn : Names seen n t e) :
    Names (seen ++ cancelEvents s a) n t e := by
  refine hn.append fun t' e' hmem => ?_
  obtain ⟨taskId, executionId, rfl, -⟩ := named_of_mem hmem
  have hnone : s.cancels.lookup n = none := by
    cases cancelMove h with
    | other _ hevents =>
      rw [hevents] at hmem
      cases hmem
    | begun _ _ _ ha hnew =>
      cases ha
      exact hnew
    | checked _ _ _ ha | called _ _ ha | replied _ _ _ ha => cases ha
  have hphase := ht.phases n
  rw [hnone] at hphase
  exact hphase t e ((hn t e).mpr ⟨rfl, rfl⟩)

/-- A step of another request leaves what has been seen of this one. -/
theorem PhaseOk.append {new : List CancelEvent} {phase : Option CancelPhase}
    (h : PhaseOk seen n phase) (hnew : ∀ t e, .named n t e ∉ new) :
    PhaseOk (seen ++ new) n phase := by
  cases phase with
  | none =>
    intro t e hmem
    obtain hold | hn := List.mem_append.mp hmem
    · exact h t e hold
    · exact hnew t e hn
  | some phase =>
    cases phase with
    | checking t e => exact Names.append h hnew
    | approved t =>
      obtain ⟨e, hnames, happroved⟩ := h
      exact ⟨e, hnames.append hnew, List.mem_append_left _ happroved⟩
    | cancelling | replied => trivial

theorem not_named (h : ∀ taskId executionId, a ≠ .cancelBegin n taskId executionId) (t : TaskID)
    (e : ExecutionID) : .named n t e ∉ cancelEvents s a := by
  intro hmem
  obtain ⟨taskId, executionId, ha, -⟩ := named_of_mem hmem
  exact h taskId executionId ha

theorem tracked_phases (ht : Tracked seen s) (h : step s a = some u) (n : Nat) :
    PhaseOk (seen ++ cancelEvents s a) n (u.cancels.lookup n) := by
  have hphase := ht.phases n
  cases cancelMove h with
  | other hcancels hevents =>
    rw [hcancels, hevents, List.append_nil]
    exact hphase
  | begun m taskId executionId ha hnew hu =>
    subst ha hu
    simp only [State.setCancel, UnorderedMap.lookup_insert_eq]
    split
    · rename_i hn
      subst hn
      rw [hnew] at hphase
      obtain ⟨status, hd⟩ | ⟨t, e, hd⟩ := cancelDecoded_cases taskId executionId
      · rw [hd]
        trivial
      · simp only [cancelEvents, hd]
        exact names_of_named hphase
    · rename_i hn
      exact hphase.append (not_named fun _ _ ha => hn (by cases ha; rfl))
  | checked m t e ha hchecking hu =>
    subst ha hu
    simp only [State.setCancel, UnorderedMap.lookup_insert_eq]
    split
    · rename_i hn
      subst hn
      rw [hchecking] at hphase
      obtain ⟨status, hd⟩ | hd := cancelChecked_cases s t e
      · rw [hd]
        trivial
      · have hnames := ht.names h hphase
        simp only [cancelEvents, hchecking, hd] at hnames ⊢
        exact ⟨e, hnames, by simp⟩
    · exact hphase.append (not_named (by simp))
  | called m t ha happroved hcancels =>
    subst ha
    rw [hcancels, UnorderedMap.lookup_insert_eq]
    split
    · trivial
    · exact hphase.append (not_named (by simp))
  | replied m t status ha hcancelling hu =>
    subst ha hu
    simp only [State.setCancel, UnorderedMap.lookup_insert_eq]
    split
    · trivial
    · exact hphase.append (not_named (by simp))

theorem tracked_step (ht : Tracked seen s) (h : step s a = some u) :
    Tracked (seen ++ cancelEvents s a) u := by
  refine ⟨tracked_phases ht h, fun n t hmem => ?_⟩
  obtain hold | hnew := List.mem_append.mp hmem
  · obtain ⟨e, hnames, happroved⟩ := ht.called n t hold
    exact ⟨e, ht.names h hnames, List.mem_append_left _ happroved⟩
  · obtain ⟨rfl, hphase⟩ := called_of_mem hnew
    have hok := ht.phases n
    rw [hphase] at hok
    obtain ⟨e, hnames, happroved⟩ := hok
    exact ⟨e, ht.names h hnames, List.mem_append_left _ happroved⟩

/-! ## The execution stays reached -/

/-- A request that has claimed its execution goes on with it. -/
theorem claimer_after (h : Effect s a u) {m : Nat} {l : Launch}
    (hl : s.launches.lookup m = some l) (hc : l.isClaimer = true) : ∃ l',
    u.launches.lookup m = some l' ∧ l'.isClaimer = true ∧ l'.executionId = l.executionId ∧
      l'.spec = l.spec := by
  -- another request, or the same one in a later phase
  have setLaunch : ∀ {k : Nat} {l₁ : Launch}, u.launches = s.launches.insert k l₁ →
      (k = m → l₁.isClaimer = true ∧ l₁.executionId = l.executionId ∧ l₁.spec = l.spec) →
      ∃ l', u.launches.lookup m = some l' ∧ l'.isClaimer = true ∧
        l'.executionId = l.executionId ∧ l'.spec = l.spec := by
    intro k l₁ hu hsame
    rw [hu, UnorderedMap.lookup_insert_eq]
    split
    · rename_i hk
      obtain ⟨hc', he, hspec⟩ := hsame hk.symm
      exact ⟨l₁, rfl, hc', he, hspec⟩
    · exact ⟨l, hl, hc, rfl, rfl⟩
  have claiming : ∀ {k : Nat} {l₀ : Launch}, s.launches.lookup k = some l₀ →
      l₀.phase = .claiming → k ≠ m := by
    rintro k l₀ hl₀ hphase rfl
    rw [hl] at hl₀
    cases hl₀
    simp [Launch.isClaimer, hphase] at hc
  cases h with
  | begin hnew =>
    refine setLaunch rfl fun hk => ?_
    rw [hk, hl] at hnew
    cases hnew
  | reject hl₀ hphase | replay hl₀ hphase | claim hl₀ hphase =>
    exact setLaunch rfl fun hk => absurd hk (claiming hl₀ hphase)
  | submit hl₀ | store hl₀ =>
    refine setLaunch rfl fun hk => ?_
    rw [hk, hl] at hl₀
    cases hl₀
    exact ⟨rfl, rfl, rfl⟩
  | undecoded | cancel | cancelRuntime | unreported | report | callbackReturn | runtime | leave =>
    exact ⟨l, hl, hc, rfl, rfl⟩

theorem reached_step (h : Effect s a u) (hi : Ledger s) (hr : Reached s t e)
    (hrefusing : refusing s a ≠ some e)
    (hregistering : ∀ e', registering s a = some (e', t) → e' = e) : Reached u t e where
  submitted := by
    obtain ⟨m, l, hl, hc, rfl, rfl, hok⟩ := hr.submitted
    obtain ⟨l', hl', hc', he, hspec⟩ := claimer_after h hl hc
    refine ⟨m, l', hl', hc', he, by rw [hspec], ?_⟩
    rw [(provisional_or_refusing h hi hl).resolve_right hrefusing]
    exact hok
  own := by
    intro m e' hid hc
    have hbefore := identity_before h hi hid hc
    obtain hold | ⟨-, -, ⟨spec, hinside⟩, rfl, hpasses⟩ := registered_before h hi hid hc
    · exact hr.own m e' hbefore hold
    · exact hregistering e' (by simp [registering, hpasses, hinside, hbefore])

/-- A cancellation that has passed the check in a settled run reaches its execution. -/
def Approvals (seen : List CancelEvent) (s : State) : Prop :=
  ∀ n t e, .approved n t e ∈ seen → Reached s t e

theorem approvals_step (hi : Ledger s) (ha : Approvals seen s)
    (hC : cancelsSettled (seen, s) a = true) (h : step s a = some u) :
    Approvals (seen ++ cancelEvents s a) u := by
  have heffect := effect h hi.claims
  simp only [cancelsSettled, Bool.and_eq_true] at hC
  obtain ⟨⟨hcheck, hrefuse⟩, hregister⟩ := hC
  intro n t e hmem
  obtain hold | hnew := List.mem_append.mp hmem
  · refine reached_step heffect hi (ha n t e hold) (fun hrefusing => ?_) (fun e' hmade => ?_)
    · rw [hrefusing] at hrefuse
      have hno : approvedFor seen e = false := by simpa using hrefuse
      simp only [approvedFor, List.any_eq_false] at hno
      exact hno _ hold (by simp)
    · rw [hmade] at hregister
      have hno : approvedAgainst seen e' t = false := by simpa using hregister
      simp only [approvedAgainst, List.any_eq_false] at hno
      by_contra hne
      exact hno _ hold (by simp [Ne.symm hne])
  · obtain ⟨rfl, hphase, t', hchecked⟩ := approved_of_mem hnew
    obtain ⟨rfl, existing, hentry, htask, hok⟩ := cancelChecked_approved hchecked
    simp only [hphase, hchecked, Bool.and_eq_true, Bool.not_eq_true'] at hcheck
    obtain ⟨hrefusal, hforeign⟩ := hcheck
    have hu : u = s.setCancel n (cancelChecked s t' e) := by
      cases cancelMove h with
      | other _ hevents =>
        rw [hevents] at hnew
        cases hnew
      | checked m t₀ e₀ hm hphase₀ hu =>
        cases hm
        rw [hphase] at hphase₀
        cases hphase₀
        exact hu
      | begun _ _ _ hm | called _ _ hm | replied _ _ _ hm => cases hm
    subst hu
    obtain ⟨m, l, hl, hc, rfl⟩ := hi.claims.entry e existing hentry
    have hclaimed := hi.claims.claimed m l hl hc
    rw [hentry] at hclaimed
    cases hclaimed
    refine ⟨⟨m, l, hl, hc, rfl, htask, ?_⟩, fun m' e' hid hregistered => ?_⟩
    · have hstored := hi.stored hl hc (anyLaunch_eq_false hrefusal hl)
      rw [show provisional (s.setCancel n _).runtime m = provisional s.runtime m from rfl,
        ← hstored]
      exact hok
    · -- the record is not that of another execution
      obtain ⟨l', hl', he⟩ := Option.map_eq_some_iff.mp hid
      cases he
      have hno := anyLaunch_eq_false hforeign hl'
      have hmade : (course s.runtime m').isRegistered = true := hregistered
      by_contra hne
      simp [isForeign, hne, hmade] at hno

/-! ## The result -/

variable {registry : HandlerRegistry} {workerIds : List WorkerID} {capacity : ResourceSet}
  {reporter : Bool} {as : List Action}

theorem tracked_initial : Tracked [] (.initial registry workerIds capacity reporter) where
  phases n := by simp [State.initial, PhaseOk]
  called n t h := by cases h

/-- In a run whose steps are settled a cancellation reaches the execution it names. -/
theorem cancels_reach_own
    (h : Run.run (Run.recorded step cancelEvents) as
      ([], .initial registry workerIds capacity reporter) = some (seen, s))
    (hC : Run.Along (Run.recorded step cancelEvents) (fun h a => cancelsSettled h a = true) as
      ([], .initial registry workerIds capacity reporter)) : CancelsReachOwn seen s := by
  have hrun := Run.invariant
    (I := fun h : List CancelEvent × State => Ledger h.2 ∧ Tracked h.1 h.2 ∧ Approvals h.1 h.2)
    (fun v a w ⟨hi, ht, ha⟩ hC hstep => ?_) hC h
    ⟨ledger_initial registry workerIds capacity reporter, tracked_initial,
      fun _ _ _ hmem => by cases hmem⟩
  · obtain ⟨-, ht, ha⟩ := hrun
    intro n t hcalled
    obtain ⟨e, hnames, happroved⟩ := ht.called n t hcalled
    exact ⟨e, hnames, ha n t e happroved⟩
  · obtain ⟨u, hu, rfl⟩ := Option.map_eq_some_iff.mp hstep
    exact ⟨step_ledger hu hi, tracked_step ht hu, approvals_step hi ha hC hu⟩

namespace Sample

/-- A cancellation up to the call of `Runtime::Cancel` and its return. -/
def cancel (n : Nat) (t e : UInt8) : List Action :=
  [.cancelBegin n (LocalSystem.Sample.task t).bytes (StrongID.ofByte e : ExecutionID).bytes,
    .cancelCheck n, .cancelRuntime n, .runtime (.call .cancelTask),
    .runtime (.call (.cancelReturn none))]

/-- The task runs under its first execution. -/
def running : List Action :=
  start ++ claim 1 1 1 ++ submit 1 none ++ [.runtime (.loop .wait)] ++
    (LocalSystem.Sample.schedule (.ofByte 1)).map .runtime ++
    (LocalSystem.Sample.execute.take 3).map .runtime

/-- The task is cancelled under its execution, and then refused under a second one. -/
def own : List Action :=
  running ++ cancel 1 1 1 ++ claim 2 1 2 ++ [.launchSubmit 2, .runtime (.call .submitRegister)]

/-- A second execution of the task is claimed and cancelled before it is submitted. -/
def foreign : List Action :=
  running ++ claim 2 1 2 ++ cancel 1 1 2 ++ [.launchSubmit 2, .runtime (.call .submitRegister)]

/-- A run of the service with its cancellations. -/
def cancelsIn (as : List Action) : List CancelEvent × State :=
  Run.stateAfter (Run.recorded step cancelEvents) as ([], worker)

end Sample

theorem cancels_reach_own_running :
    .called 1 (LocalSystem.Sample.task 1) ∈ (Sample.cancelsIn Sample.own).1 ∧
      CancelsReachOwn (Sample.cancelsIn Sample.own).1 (Sample.cancelsIn Sample.own).2 := by
  have hrun : Run.run (Run.recorded step cancelEvents) Sample.own ([], Sample.worker) =
      some (Sample.cancelsIn Sample.own) := Run.run_stateAfter (by decide)
  exact ⟨by decide, cancels_reach_own hrun (by decide)⟩

/-- The cancellation of the second execution, which is refused, reaches the first one. -/
theorem foreign_execution_cancelled : ∃ seen s,
    Run.run (Run.recorded step cancelEvents) Sample.foreign ([], Sample.worker) =
      some (seen, s) ∧
    .called 1 (LocalSystem.Sample.task 1) ∈ seen ∧
    (s.runtime.submits.lookup 1).map Status.ok = some true ∧
    s.runtime.submits.lookup 2 = some (.AlreadyExists "Task already registered") ∧
    (s.runtime.taskManager.records.lookup (LocalSystem.Sample.task 1)).map
      TaskRecord.cancelRequested = some true ∧
    ¬ CancelsReachOwn seen s := by
  refine ⟨_, _, Run.run_stateAfter (by decide), by decide, by decide, by decide, by decide,
    fun h => ?_⟩
  obtain ⟨e, hnames, hreached⟩ := h 1 (LocalSystem.Sample.task 1) (by decide)
  have hnamed := (hnames (LocalSystem.Sample.task 1) (.ofByte 2)).mp (by decide)
  have hown := hreached.own 1 (.ofByte 1) (by decide) (by decide)
  rw [← hnamed.2] at hown
  exact absurd hown (by decide)

end WorkerService

end AgentRuntime
