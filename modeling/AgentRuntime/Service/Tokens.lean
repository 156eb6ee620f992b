import AgentRuntime.Local.Tokens
import AgentRuntime.Service.Cancellations

/-!
# What becomes of a CancelTask request

A request asks `Runtime::Cancel` for the task that it names, and answers what
that has returned. So the token of a task is set at a worker when a request has
been answered with OK, and if it is set a request has named the task.
-/
namespace AgentRuntime

namespace WorkerService

open LocalSystem (Asked AskedFor asking)

variable {s u : State} {a : Action}

/-- The runtime takes a step, in which it is called as a request calls it, or it does not. -/
theorem step_calls (h : step s a = some u) (hi : Ledger s) :
    (u.runtime = s.runtime ∧ ∀ n, a ≠ .cancelRuntime n) ∨
    ∃ b, LocalSystem.step s.runtime b = some u.runtime ∧
      ((∀ n, a ≠ .cancelRuntime n) ∧ LocalSystem.asks b = [] ∨
      ∃ n t, a = .cancelRuntime n ∧ s.cancels.lookup n = some (.approved t) ∧
        LocalSystem.asks b = [(n, t)]) := by
  have hquiet : ∀ {b}, isRequestCall b = false → LocalSystem.asks b = [] := by
    intro b hb
    unfold LocalSystem.asks
    split
    · cases hb
    · rfl
  by_cases hcancel : ∃ n, a = .cancelRuntime n
  · obtain ⟨n, rfl⟩ := hcancel
    simp only [step] at h
    split at h
    · rename_i t hphase
      obtain ⟨runtime, hstep, rfl⟩ := Option.map_eq_some_iff.mp h
      exact .inr ⟨_, hstep, .inr ⟨n, t, rfl, hphase, rfl⟩⟩
    · cases h
  · have hother : ∀ n, a ≠ .cancelRuntime n := fun n heq => hcancel ⟨n, heq⟩
    cases effect h hi.claims with
    | begin | undecoded | reject | replay | claim | store | cancel | unreported | report
    | callbackReturn => exact .inl ⟨rfl, hother⟩
    | cancelRuntime => exact absurd rfl (hother _)
    | submit _ _ hstep => exact .inr ⟨_, hstep, .inl ⟨hother, rfl⟩⟩
    | runtime hcall _ hstep => exact .inr ⟨_, hstep, .inl ⟨hother, hquiet hcall⟩⟩
    | leave hcall _ _ hstep => exact .inr ⟨_, hstep, .inl ⟨hother, hquiet hcall⟩⟩

/-- What has become of a request in each of its phases. -/
def PhaseHeard (named : Nat → TaskID → Prop) (asked : List (Nat × TaskID))
    (runtime : LocalSystem.State) (n : Nat) : CancelPhase → Prop
  | .checking t _ | .approved t => named n t
  | .cancelling t => (n, t) ∈ asked
  | .replied status => status.ok = true → ∃ t, named n t ∧ runtime.token t = true

/-- The requests name the tasks that they are said to name, and have asked the runtime for them. -/
structure Heard (named : Nat → TaskID → Prop) (asked : List (Nat × TaskID)) (s : State) : Prop where
  runtime : Asked asked s.runtime
  asks : ∀ n t, (n, t) ∈ asked → named n t
  phases : ∀ n phase, s.cancels.lookup n = some phase → PhaseHeard named asked s.runtime n phase

theorem heard_initial {registry : HandlerRegistry} {workerIds : List WorkerID}
    {capacity : ResourceSet} {reporter : Bool} (named : Nat → TaskID → Prop) :
    Heard named [] (.initial registry workerIds capacity reporter) where
  runtime := LocalSystem.asked_initial workerIds capacity reporter
  asks n t hmem := by cases hmem
  phases n phase hl := by simp [State.initial] at hl

variable {named named' : Nat → TaskID → Prop} {asked asked' : List (Nat × TaskID)}

/-- A token that is set at a worker was asked for by a request that names its task. -/
theorem Heard.named_of_token (h : Heard named asked s) {t : TaskID}
    (ht : s.runtime.token t = true) : ∃ n, named n t := by
  obtain ⟨n, hmem⟩ := h.runtime.tokens t ht
  exact ⟨n, h.asks n t hmem⟩

theorem PhaseHeard.mono {runtime runtime' : LocalSystem.State} {n : Nat} {phase : CancelPhase}
    (h : PhaseHeard named asked runtime n phase) (hnamed : ∀ n t, named n t → named' n t)
    (hasked : ∀ t, (n, t) ∈ asked → (n, t) ∈ asked')
    (htoken : ∀ t, runtime.token t = true → runtime'.token t = true) :
    PhaseHeard named' asked' runtime' n phase := by
  cases phase with
  | checking t e => exact hnamed n t h
  | approved t => exact hnamed n t h
  | cancelling t => exact hasked t h
  | replied status =>
    intro hok
    obtain ⟨t, hn, ht⟩ := h hok
    exact ⟨t, hnamed n t hn, htoken t ht⟩

theorem Heard.mono (h : Heard named asked s) (hnamed : ∀ n t, named n t → named' n t) :
    Heard named' asked s where
  runtime := h.runtime
  asks n t hmem := hnamed n t (h.asks n t hmem)
  phases n phase hl := (h.phases n phase hl).mono hnamed (fun _ hmem => hmem) fun _ ht => ht

/-- The request has decoded the task that it names. -/
theorem decoded_of_checking {taskId executionId : ByteString} {t : TaskID} {e : ExecutionID}
    (h : cancelDecoded taskId executionId = .checking t e) : StrongID.fromProto taskId = .ok t := by
  simp only [cancelDecoded] at h
  split at h
  · cases h
  · rename_i ht
    split at h
    · cases h
    · cases h
      exact ht

theorem decoded_not_ok {taskId executionId : ByteString} {status : Status}
    (h : cancelDecoded taskId executionId = .replied status) : status.ok = false := by
  simp only [cancelDecoded] at h
  split at h
  · rename_i hwire
    cases h
    rw [StrongID.fromProto_error hwire]
    rfl
  · split at h
    · rename_i hwire
      cases h
      rw [StrongID.fromProto_error hwire]
      rfl
    · cases h

theorem checked_not_ok {t : TaskID} {e : ExecutionID} {status : Status}
    (h : cancelChecked s t e = .replied status) : status.ok = false := by
  simp only [cancelChecked] at h
  split at h
  · cases h
    rfl
  · split at h
    · cases h
      rfl
    · split at h
      · cases h
        rfl
      · cases h

/-- What is returned to a request is what its call has returned. -/
theorem Heard.returned (h : Heard named asked s) {n : Nat} {t : TaskID} {status : Status}
    (hphase : s.cancels.lookup n = some (.cancelling t))
    (hreturned : s.runtime.cancels.lookup n = some status) (hok : status.ok = true) :
    named n t ∧ s.runtime.token t = true := by
  have hmem : (n, t) ∈ asked := h.phases n _ hphase
  have hcall := h.runtime.calls n
  rw [LocalSystem.asking_of_returned hreturned] at hcall
  obtain ⟨t', hfor, ht'⟩ := hcall
  obtain rfl := (hfor t).mp hmem
  exact ⟨h.asks n t hmem, ht' hok⟩

/-- What the runtime is asked after the step. -/
theorem Heard.asked_after (hh : Heard named asked s) (hi : Ledger s) (h : step s a = some u) :
    ∃ asked', Asked asked' u.runtime ∧ (∀ n t, (n, t) ∈ asked → (n, t) ∈ asked') ∧
      (∀ n t, (n, t) ∈ asked' → named n t) ∧
      (∀ n t, a = .cancelRuntime n → s.cancels.lookup n = some (.approved t) → (n, t) ∈ asked') ∧
      ∀ t, s.runtime.token t = true → u.runtime.token t = true := by
  obtain ⟨hsame, hno⟩ | ⟨b, hstep, hb⟩ := step_calls h hi
  · rw [hsame]
    exact ⟨asked, hh.runtime, fun _ _ hmem => hmem, hh.asks,
      fun n t heq => absurd heq (hno n), fun _ ht => ht⟩
  · have hinv := hi.sound.inv
    refine ⟨_, hh.runtime.step hinv hstep, fun _ _ hmem => List.mem_append_left _ hmem,
      fun n t hmem => ?_, fun n t heq hphase => ?_,
      fun t => LocalSystem.token_after hstep hinv hh.runtime.unreturned⟩
    · obtain hmem | hmem := List.mem_append.mp hmem
      · exact hh.asks n t hmem
      · obtain ⟨-, hnone⟩ | ⟨m, t', -, hphase, hasks⟩ := hb
        · rw [hnone] at hmem
          cases hmem
        · rw [hasks] at hmem
          cases List.mem_singleton.mp hmem
          exact hh.phases n _ hphase
    · obtain ⟨hno, -⟩ | ⟨m, t', rfl, hphase', hasks⟩ := hb
      · exact absurd heq (hno n)
      · cases heq
        rw [hphase] at hphase'
        cases hphase'
        rw [hasks]
        exact List.mem_append_right _ (List.mem_singleton.mpr rfl)

theorem Heard.token_after (hh : Heard named asked s) (hi : Ledger s) (h : step s a = some u)
    {t : TaskID} (ht : s.runtime.token t = true) : u.runtime.token t = true := by
  obtain ⟨_, -, -, -, -, hkept⟩ := hh.asked_after hi h
  exact hkept t ht

theorem step_cancelReply {n : Nat} (h : step s (.cancelReply n) = some u) : ∃ t status,
    s.cancels.lookup n = some (.cancelling t) ∧ s.runtime.cancels.lookup n = some status ∧
      u = s.setCancel n (.replied status) := by
  simp only [step] at h
  split at h
  · rename_i t status hphase hreturned
    exact ⟨t, status, hphase, hreturned, (Option.some.inj h).symm⟩
  · cases h

/-- A request that arrives names the task that it decodes. -/
theorem Heard.step (hh : Heard named asked s) (hi : Ledger s) (h : step s a = some u)
    (hmono : ∀ n t, named n t → named' n t)
    (hbegin : ∀ n taskId executionId, a = .cancelBegin n taskId executionId →
      ∀ t, StrongID.fromProto taskId = .ok t → named' n t) : ∃ asked', Heard named' asked' u := by
  obtain ⟨asked', ha', hkept, hin, hnew, htoken⟩ := hh.asked_after hi h
  refine ⟨asked', ha', fun n t hmem => hmono n t (hin n t hmem), fun n phase hl => ?_⟩
  have hstays : ∀ n phase, s.cancels.lookup n = some phase →
      PhaseHeard named' asked' u.runtime n phase :=
    fun n phase hl => (hh.phases n phase hl).mono hmono (hkept n) htoken
  -- the request is another one, or the one that moves, in its new phase
  have hmoves : ∀ m next, u.cancels.lookup n = (s.cancels.insert m next).lookup n →
      PhaseHeard named' asked' u.runtime m next → PhaseHeard named' asked' u.runtime n phase := by
    intro m next hcancels hnext
    rw [hcancels, UnorderedMap.lookup_insert_eq] at hl
    split at hl
    · rename_i heq
      obtain rfl := Option.some.inj hl
      exact heq ▸ hnext
    · exact hstays n phase hl
  have hrefused : ∀ m status, status.ok = false →
      PhaseHeard named' asked' u.runtime m (.replied status) := by
    intro m status hno hok
    rw [hno] at hok
    cases hok
  cases cancelMove h with
  | other hcancels => exact hstays n phase (hcancels ▸ hl)
  | begun m taskId executionId hm _ hu =>
    refine hmoves m (cancelDecoded taskId executionId) (by rw [hu]; rfl) ?_
    obtain ⟨status, hd⟩ | ⟨t, e, hd⟩ := cancelDecoded_cases taskId executionId
    · rw [hd]
      exact hrefused m status (decoded_not_ok hd)
    · rw [hd]
      exact hbegin m taskId executionId hm t (decoded_of_checking hd)
  | checked m t e _ hphase hu =>
    refine hmoves m (cancelChecked s t e) (by rw [hu]; rfl) ?_
    obtain ⟨status, hd⟩ | hd := cancelChecked_cases s t e
    · rw [hd]
      exact hrefused m status (checked_not_ok hd)
    · rw [hd]
      exact hmono m t (hh.phases m _ hphase)
  | called m t hm hphase hcancels =>
    exact hmoves m (.cancelling t) (by rw [hcancels]) (hnew m t hm hphase)
  | replied m t status hm hphase hu =>
    rw [hm] at h
    obtain ⟨t', status', hphase', hreturned, rfl⟩ := step_cancelReply h
    refine hmoves m (.replied status') rfl fun hok => ?_
    obtain ⟨hn, ht⟩ := hh.returned hphase' hreturned hok
    exact ⟨t', hmono m t' hn, htoken t' ht⟩

end WorkerService

end AgentRuntime
