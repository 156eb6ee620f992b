import AgentRuntime.Service.Admissions

/-!
# Replies and the one admission decision

A claim is entered into the ledger as admitted before `Submit` has decided. A
duplicate that is answered from it while the decision is out gets an answer
that a refusal makes wrong.
-/
namespace AgentRuntime

namespace WorkerService

open LocalSystem (course provisional refuses)

/-- Some request is as described. -/
def anyLaunch (s : State) (p : Nat → Launch → Bool) : Bool :=
  decide (∃ n ∈ s.launches.keys, (s.launches.lookup n).any (p n) = true)

theorem anyLaunch_eq_false {s : State} {p : Nat → Launch → Bool} (h : anyLaunch s p = false)
    {n : Nat} {l : Launch} (hl : s.launches.lookup n = some l) : p n l = false := by
  simp only [anyLaunch, decide_eq_false_iff_not, not_exists, not_and] at h
  have hmem : n ∈ s.launches.keys := Finmap.mem_keys.mpr (Finmap.mem_iff.mpr ⟨l, hl⟩)
  have hnot := h n hmem
  rw [hl] at hnot
  simpa using hnot

/-- A duplicate of the execution has been answered from the ledger. -/
def isReplayOf (e : ExecutionID) (l : Launch) : Bool :=
  match l.phase with
  | .replayed _ => l.executionId = e
  | _ => false

/-- The submission of the execution has been refused, and the ledger does not say so yet. -/
def isRefusalOf (s : State) (e : ExecutionID) (n : Nat) (l : Launch) : Bool :=
  decide (l.phase = .submitting) && decide (l.executionId = e) &&
    (s.runtime.submits.lookup n).any (fun status => decide (status ≠ .OK))

/-- The execution whose submission a step refuses. -/
def refusing (s : State) : Action → Option ExecutionID
  | .launchSubmit n =>
    (s.launches.lookup n).bind fun l =>
      if refuses s.runtime (.submitBegin n l.spec l.handler) then some l.executionId else none
  | .runtime (.call a) =>
    if refuses s.runtime a then
      s.runtime.submitting?.bind fun call => (s.launches.lookup call.1).map Launch.executionId
    else none
  | _ => none

/-- No replay falls between a refusal and its entry in the ledger, and no submission is
refused of which a duplicate has been answered already. -/
def repliesSettled (s : State) : Action → Bool
  | .launchClaim n =>
    match s.launches.lookup n with
    | some l =>
      match s.executions.lookup l.executionId with
      | some existing =>
        decide (existing.taskId ≠ l.spec.id) || !anyLaunch s (isRefusalOf s l.executionId)
      | none => true
    | none => true
  | .launchSubmit n =>
    match s.launches.lookup n with
    | some l =>
      !refuses s.runtime (.submitBegin n l.spec l.handler) ||
        !anyLaunch s (fun _ => isReplayOf l.executionId)
    | none => true
  | .runtime (.call a) =>
    !refuses s.runtime a ||
      match s.runtime.submitting? with
      | some (n, _) =>
        match s.launches.lookup n with
        | some l => !anyLaunch s (fun _ => isReplayOf l.executionId)
        | none => true
      | none => true
  | _ => true

/-- Every reply for an execution is what its one submission returned. -/
def RepliesAgree (s : State) : Prop := ∀ n l status, s.launches.lookup n = some l →
  l.isClaimer = true → s.runtime.submits.lookup n = some status →
  ∀ m l' reply, s.launches.lookup m = some l' → l'.executionId = l.executionId →
    l'.spec.id = l.spec.id → l'.reply? = some reply → reply = status

/-! ## The invariant -/

/-- An answer from the ledger is about an execution in it. -/
def Launch.Answered (executions : UnorderedMap ExecutionID ExecutionAdmission) (l : Launch) :
    Prop :=
  match l.phase with
  | .replayed status => ∃ existing, executions.lookup l.executionId = some existing ∧
      (status = .OK ∨ existing.admissionStatus = status)
  | .rejected _ => ∃ existing, executions.lookup l.executionId = some existing ∧
      existing.taskId ≠ l.spec.id
  | .claiming | .claimed | .submitting | .answered _ => True

def Answers (s : State) : Prop :=
  ∀ m l, s.launches.lookup m = some l → l.Answered s.executions

/-- A duplicate was told what the submission has returned, or will. -/
def Settled (s : State) : Prop := ∀ n l, s.launches.lookup n = some l → l.isClaimer = true →
  ∀ m l' reply, s.launches.lookup m = some l' → l'.executionId = l.executionId →
    l'.phase = .replayed reply → provisional s.runtime n = reply

variable {s u : State} {a : Action}

/-- Answers stay right while the ledger keeps its entries. -/
theorem Launch.Answered.keep {executions executions' : UnorderedMap ExecutionID ExecutionAdmission}
    {l : Launch} (h : l.Answered executions)
    (hbound : ∀ e existing, executions.lookup e = some existing →
      ∃ existing', executions'.lookup e = some existing' ∧ existing'.taskId = existing.taskId ∧
        (existing.admissionStatus = .OK ∨ existing' = existing)) :
    l.Answered executions' := by
  obtain ⟨e, spec, handler, phase⟩ := l
  cases phase with
  | replayed status =>
    obtain ⟨existing, he, hstatus⟩ := h
    obtain ⟨existing', he', -, hopen | rfl⟩ := hbound _ existing he
    · obtain rfl | hstatus := hstatus
      · exact ⟨existing', he', .inl rfl⟩
      · exact ⟨existing', he', .inl (hstatus.symm.trans hopen)⟩
    · exact ⟨existing', he', hstatus⟩
  | rejected status =>
    obtain ⟨existing, he, hother⟩ := h
    obtain ⟨existing', he', htask, -⟩ := hbound _ existing he
    exact ⟨existing', he', htask ▸ hother⟩
  | claiming | claimed | submitting | answered => trivial

/-- A status in the ledger is written over once, by the request that claimed the execution. -/
theorem step_entry (h : Effect s a u) (hc : Claims s.executions s.launches) {e : ExecutionID}
    {existing : ExecutionAdmission} (he : s.executions.lookup e = some existing) :
    ∃ existing', u.executions.lookup e = some existing' ∧ existing'.taskId = existing.taskId ∧
      (existing.admissionStatus = .OK ∨ existing' = existing) := by
  obtain ⟨existing', he', htask⟩ := step_bound h he
  refine ⟨existing', he', htask, ?_⟩
  cases h with
  | claim hl hphase hentry =>
    right
    simp only [State.setLaunch, UnorderedMap.emplace_of_none _ hentry,
      UnorderedMap.lookup_insert_eq] at he'
    split at he'
    · rename_i hid
      rw [hid, hentry] at he
      cases he
    · exact Option.some.inj (he'.symm.trans he)
  | @store n l status existing₀ hl hphase hstatus hentry =>
    by_cases hid : e = l.executionId
    · left
      have hclaimed := hc.claimed n l hl (by simp [Launch.isClaimer, hphase])
      rw [← hid, he] at hclaimed
      rw [Option.some.inj hclaimed, Launch.stored, hphase]
    · right
      simp only [State.setLaunch, UnorderedMap.lookup_insert_eq, if_neg hid] at he'
      exact Option.some.inj (he'.symm.trans he)
  | begin | undecoded | reject | replay | submit | cancel | cancelRuntime | unreported | report
  | callbackReturn | runtime | leave => exact .inr (Option.some.inj (he'.symm.trans he))

theorem step_answers (h : Effect s a u) (hc : Claims s.executions s.launches) (ha : Answers s) :
    Answers u := by
  have keep : ∀ {m : Nat} {l : Launch}, s.launches.lookup m = some l →
      l.Answered u.executions := fun hl =>
    (ha _ _ hl).keep (fun _ _ he => step_entry h hc he)
  -- the request that the step is about
  have setLaunch : ∀ {n : Nat} {l : Launch}, u.launches = s.launches.insert n l →
      l.Answered u.executions → Answers u := by
    intro n l hu hl m l' hl'
    rw [hu, UnorderedMap.lookup_insert_eq] at hl'
    split at hl'
    · cases hl'
      exact hl
    · exact keep hl'
  cases h with
  | begin hnew hphase =>
    refine setLaunch rfl ?_
    rw [Launch.Answered, hphase]
    trivial
  | reject hl hphase hentry hother => exact setLaunch rfl ⟨_, hentry, hother⟩
  | replay hl hphase hentry hsame => exact setLaunch rfl ⟨_, hentry, .inr rfl⟩
  | claim | submit | store => exact setLaunch rfl trivial
  | undecoded | cancel | cancelRuntime | unreported | report | callbackReturn | runtime | leave =>
    exact fun m l hl => keep hl

/-- The ledger holds the provisional status of the submission, unless the request still has
to store a refusal. -/
theorem Ledger.stored (hi : Ledger s) {n : Nat} {l : Launch} (hl : s.launches.lookup n = some l)
    (hc : l.isClaimer = true) (hno : isRefusalOf s l.executionId n l = false) :
    l.stored = provisional s.runtime n := by
  have hlinked := hi.linked n
  rw [hl] at hlinked
  obtain ⟨e, spec, handler, phase⟩ := l
  cases phase with
  | claiming | rejected | replayed => cases hc
  | claimed =>
    have hout : course s.runtime n = .outside := hlinked
    rw [provisional, LocalSystem.submits_of_course (by simp [hout])]
    rfl
  | submitting =>
    rw [provisional]
    cases hreturned : s.runtime.submits.lookup n with
    | none => rfl
    | some status =>
      simp only [isRefusalOf, hreturned] at hno
      exact (by simpa using hno : status = .OK).symm
  | answered status =>
    rw [provisional, LocalSystem.returned_of_course hlinked]
    rfl

theorem isReplayOf_of_phase {e : ExecutionID} {l : Launch} {reply : Status}
    (hphase : l.phase = .replayed reply) (he : l.executionId = e) : isReplayOf e l = true := by
  simp [isReplayOf, hphase, he]

/-- The provisional status of a submission changes when it is refused. -/
theorem provisional_or_refusing (h : Effect s a u) (hi : Ledger s) {n : Nat} {l : Launch}
    (hl : s.launches.lookup n = some l) :
    provisional u.runtime n = provisional s.runtime n ∨ refusing s a = some l.executionId := by
  -- a step of the runtime in which no request begins its call
  have inside : ∀ {b runtime}, LocalSystem.step s.runtime b = some runtime →
      (∀ call, b = .call call → call.isSubmitBegin = false) →
      (∀ call, b = .call call → refuses s.runtime call = true → a = .runtime (.call call)) →
      provisional runtime n = provisional s.runtime n ∨ refusing s a = some l.executionId := by
    intro b runtime hstep hbegun ha
    obtain hsame | ⟨call, rfl, hrefuses, hcall⟩ :=
      LocalSystem.step_provisional hstep hi.sound.submitting n
    · exact .inl hsame
    · obtain rfl := ha call rfl hrefuses
      obtain ⟨spec, handler, rfl⟩ | ⟨-, c, hc⟩ := hcall
      · cases hbegun _ rfl
      · exact .inr (by simp [refusing, hrefuses, hc, hl])
  cases h with
  | @submit n' l₀ runtime hl₀ hphase₀ hstep =>
    obtain hsame | ⟨call, hcall, hrefuses, ⟨spec, handler, rfl⟩ | ⟨hbegun, -⟩⟩ :=
      LocalSystem.step_provisional hstep hi.sound.submitting n
    · exact .inl hsame
    · cases hcall
      obtain rfl : l = l₀ := Option.some.inj (hl.symm.trans hl₀)
      exact .inr (by simp [refusing, hrefuses, hl])
    · cases hcall
      cases hbegun
  | cancelRuntime phase hstep =>
    refine inside hstep (fun call hcall => ?_) (fun call hcall hrefuses => ?_)
    · cases hcall
      rfl
    · cases hcall
      cases hrefuses
  | @runtime b _ hrequest _ hstep | @leave b _ _ hrequest _ _ hstep =>
    refine inside hstep (fun call hcall => ?_) (fun call hcall _ => hcall ▸ rfl)
    subst hcall
    cases call with
    | submitBegin => cases hrequest
    | _ => rfl
  | begin | undecoded | reject | replay | claim | store | cancel | unreported | report
  | callbackReturn => exact .inl rfl

/-- The submission of which a duplicate has been answered is not refused. -/
theorem not_refusing (hC : repliesSettled s a = true) {e : ExecutionID} {m : Nat} {l : Launch}
    (hm : s.launches.lookup m = some l) (hreplay : isReplayOf e l = true) :
    refusing s a ≠ some e := by
  have replayed : anyLaunch s (fun _ => isReplayOf e) ≠ false := by
    intro hnone
    have hno := anyLaunch_eq_false hnone hm
    rw [hreplay] at hno
    cases hno
  intro hrefusing
  cases a with
  | launchSubmit n =>
    obtain ⟨l₀, hl₀, he⟩ := Option.bind_eq_some_iff.mp hrefusing
    split at he
    · rename_i hrefuses
      cases he
      exact absurd (by simpa [repliesSettled, hl₀, hrefuses] using hC) replayed
    · cases he
  | runtime b =>
    cases b with
    | call call =>
      simp only [refusing] at hrefusing
      split at hrefusing
      · rename_i hrefuses
        obtain ⟨⟨n, c⟩, hc, he⟩ := Option.bind_eq_some_iff.mp hrefusing
        obtain ⟨l₀, hl₀, rfl⟩ := Option.map_eq_some_iff.mp he
        exact absurd (by simpa [repliesSettled, hrefuses, hc, hl₀] using hC) replayed
      · cases hrefusing
    | _ => cases hrefusing
  | _ => cases hrefusing

theorem step_settled (h : Effect s a u) (hi : Ledger s) (hans : Answers s)
    (hC : repliesSettled s a = true) (hs : Settled s) : Settled u := by
  intro n l hl hc m l' reply hm he hphase
  -- both requests were there before, and the first has claimed its execution already
  have keep : ∀ {l₀ : Launch}, s.launches.lookup n = some l₀ → l₀.isClaimer = true →
      l₀.executionId = l.executionId → s.launches.lookup m = some l' →
      provisional u.runtime n = reply := by
    intro l₀ hl₀ hc₀ he₀ hm₀
    have he' : l'.executionId = l₀.executionId := he.trans he₀.symm
    rw [(provisional_or_refusing h hi hl₀).resolve_right
      (not_refusing hC hm₀ (isReplayOf_of_phase hphase he'))]
    exact hs n l₀ hl₀ hc₀ m l' reply hm₀ he' hphase
  -- the step concerns a request that neither claims nor is a duplicate
  have other : ∀ {k : Nat} {l₀ : Launch}, u.launches = s.launches.insert k l₀ →
      l₀.isClaimer = false → (∀ status, l₀.phase ≠ .replayed status) →
      provisional u.runtime n = reply := by
    intro k l₀ hu hnot hother
    rw [hu, UnorderedMap.lookup_insert_eq] at hl hm
    split at hl
    · cases hl
      rw [hnot] at hc
      cases hc
    · split at hm
      · cases hm
        exact absurd hphase (hother reply)
      · exact keep hl hc rfl hm
  -- the step concerns the request that claims the execution
  have advance : ∀ {k : Nat} {l₀ l₁ : Launch}, s.launches.lookup k = some l₀ →
      l₀.isClaimer = true → u.launches = s.launches.insert k l₁ →
      l₁.executionId = l₀.executionId → (∀ status, l₁.phase ≠ .replayed status) →
      provisional u.runtime n = reply := by
    intro k l₀ l₁ hl₀ hc₀ hu he₀ hother
    rw [hu, UnorderedMap.lookup_insert_eq] at hl hm
    split at hm
    · cases hm
      exact absurd hphase (hother reply)
    · split at hl
      · rename_i hk
        cases hl
        subst hk
        exact keep hl₀ hc₀ he₀.symm hm
      · exact keep hl hc rfl hm
  cases h with
  | @begin k task l₀ hnew hphase₀ =>
    exact other rfl (by simp [Launch.isClaimer, hphase₀]) (by simp [hphase₀])
  | reject hl₀ hphase₀ hentry hother => exact other rfl rfl (by simp)
  | @replay k l₀ existing hl₀ hphase₀ hentry hsame =>
    simp only [State.setLaunch, UnorderedMap.lookup_insert_eq] at hl hm
    split at hl
    · cases hl
      cases hc
    · split at hm
      · cases hm
        cases hphase
        -- the reply is what the ledger holds for the claimer
        have hclaimed := hi.claims.claimed n l hl hc
        rw [← he, hentry] at hclaimed
        obtain rfl := Option.some.inj hclaimed
        refine (hi.stored hl hc ?_).symm
        have htask : l.spec.id = l₀.spec.id := hsame
        have hno : anyLaunch s (isRefusalOf s l₀.executionId) = false := by
          simpa [repliesSettled, hl₀, hentry, htask] using hC
        rw [← he]
        exact anyLaunch_eq_false hno hl
      · exact keep hl hc rfl hm
  | @claim k l₀ hl₀ hphase₀ hentry =>
    simp only [State.setLaunch, UnorderedMap.lookup_insert_eq] at hl hm
    split at hm
    · cases hm
      cases hphase
    · split at hl
      · cases hl
        -- nobody can have been answered of an execution that is not in the ledger
        have hanswered := hans m l' hm
        simp only [Launch.Answered, hphase] at hanswered
        obtain ⟨existing, hfound, -⟩ := hanswered
        rw [he, show s.executions.lookup _ = none from hentry] at hfound
        cases hfound
      · exact keep hl hc rfl hm
  | submit hl₀ hphase₀ hstep =>
    exact advance hl₀ (by simp [Launch.isClaimer, hphase₀]) rfl rfl (by simp)
  | store hl₀ hphase₀ hstatus hentry =>
    exact advance hl₀ (by simp [Launch.isClaimer, hphase₀]) rfl rfl (by simp)
  | undecoded | cancel | cancelRuntime | unreported | report | callbackReturn | runtime | leave =>
    exact keep hl hc rfl hm

/-! ## The result -/

variable {registry : HandlerRegistry} {workerIds : List WorkerID} {capacity : ResourceSet}
  {reporter : Bool} {as : List Action}

/-- The replies of a state in which the duplicates were answered rightly. -/
theorem repliesAgree (hi : Ledger s) (ha : Answers s) (hs : Settled s) : RepliesAgree s := by
  intro n l status hl hc hstatus m l' reply hm he htask hreply
  have hprovisional : provisional s.runtime n = status := by
    rw [provisional, hstatus]
    rfl
  have hclaimed := hi.claims.claimed n l hl hc
  simp only [Launch.reply?] at hreply
  split at hreply
  · rename_i reply' hphase
    -- the execution belongs to this task
    have hforeign := ha m l' hm
    simp only [Launch.Answered, hphase] at hforeign
    obtain ⟨existing, hexisting, hother⟩ := hforeign
    rw [he, hclaimed] at hexisting
    cases hexisting
    exact absurd htask.symm hother
  · rename_i reply' hphase
    cases hreply
    rw [← hs n l hl hc m l' reply hm he hphase, hprovisional]
  · rename_i reply' hphase
    cases hreply
    obtain rfl := hi.claims.unique m n l' l hm hl (by simp [Launch.isClaimer, hphase]) hc he
    have hlinked := hi.linked m
    rw [hm] at hlinked
    simp only [Linked, hphase] at hlinked
    have hreturned := LocalSystem.returned_of_course hlinked
    rw [hstatus] at hreturned
    exact (Option.some.inj hreturned).symm
  · cases hreply
  · cases hreply
  · cases hreply

/-- All replies to one execution say the same, as long as no duplicate is answered from an entry whose
submission is still to be refused. -/
theorem replies_agree
    (h : Run.run step as (.initial registry workerIds capacity reporter) = some s)
    (hC : Run.Along step (fun s a => repliesSettled s a = true) as
      (.initial registry workerIds capacity reporter)) : RepliesAgree s := by
  have hrun := Run.invariant (I := fun s => Ledger s ∧ Answers s ∧ Settled s)
    (fun s a u ⟨hi, ha, hs⟩ hC hstep => ?_) hC h
    ⟨ledger_initial registry workerIds capacity reporter,
      fun m l hl => by simp [State.initial] at hl, fun n l hl => by simp [State.initial] at hl⟩
  · exact repliesAgree hrun.1 hrun.2.1 hrun.2.2
  · have heffect := effect hstep hi.claims
    exact ⟨effect_ledger heffect hi, step_answers heffect hi.claims ha,
      step_settled heffect hi ha hC hs⟩

namespace Sample

/-- One duplicate arrives while the first request is about to submit, and one afterwards. -/
def duplicates : List Action :=
  start ++ claim 1 1 1 ++ claim 2 1 1 ++ submit 1 none ++ claim 3 1 1

/-- A worker that the tasks do not fit on. -/
def fullWorker : State :=
  .initial Sample.registry [LocalSystem.Sample.workerId] .empty true

/-- A duplicate is answered while the first request is about to submit. -/
def overtaken : List Action :=
  start ++ claim 1 1 1 ++ claim 2 1 1 ++ [.launchSubmit 1, .launchStore 1]

/-- The answer to a request. -/
def reply? (s : State) (n : Nat) : Option Status := (s.launches.lookup n).bind Launch.reply?

end Sample

theorem replies_agree_duplicates :
    RepliesAgree (Run.stateAfter step Sample.duplicates Sample.worker) ∧
      [1, 2, 3].map (Sample.reply? (Run.stateAfter step Sample.duplicates Sample.worker)) =
        [some .OK, some .OK, some .OK] := by
  have hrun : Run.run step Sample.duplicates Sample.worker =
      some (Run.stateAfter step Sample.duplicates Sample.worker) :=
    Run.run_stateAfter (by decide)
  exact ⟨replies_agree hrun (by decide), by decide⟩

/-- The duplicate is told that the task was admitted, and `Submit` refuses it. -/
theorem duplicate_answered_before_refusal : ∃ s,
    Run.run step Sample.overtaken Sample.fullWorker = some s ∧
    Sample.reply? s 2 = some .OK ∧
    Sample.reply? s 1 =
      some (.ResourceExhausted "task cannot fit on any worker's total resource capacity") ∧
    ¬ RepliesAgree s := by
  obtain ⟨s, hrun, hreply, hrefused, hclaimer, hsame, hstatus⟩ : ∃ s,
      Run.run step Sample.overtaken Sample.fullWorker = some s ∧
      Sample.reply? s 2 = some .OK ∧
      Sample.reply? s 1 =
        some (.ResourceExhausted "task cannot fit on any worker's total resource capacity") ∧
      (s.launches.lookup 1).any Launch.isClaimer = true ∧
      (s.launches.lookup 1).map (fun l => (l.executionId, l.spec.id)) =
        (s.launches.lookup 2).map (fun l => (l.executionId, l.spec.id)) ∧
      (s.runtime.submits.lookup 1).map Status.ok = some false :=
    ⟨_, Run.run_stateAfter (by decide), by decide, by decide, by decide, by decide, by decide⟩
  refine ⟨s, hrun, hreply, hrefused, fun h => ?_⟩
  obtain ⟨l, hl, -⟩ := Option.bind_eq_some_iff.mp hrefused
  obtain ⟨l', hl', hok⟩ := Option.bind_eq_some_iff.mp hreply
  obtain ⟨status, hreturned, hno⟩ := Option.map_eq_some_iff.mp hstatus
  simp only [hl, hl', Option.map_some, Option.some.injEq, Prod.mk.injEq] at hsame
  simp only [hl, Option.any_some] at hclaimer
  have hagree := h 1 l status hl hclaimer hreturned 2 l' .OK hl' hsame.1.symm hsame.2.symm hok
  rw [← hagree] at hno
  cases hno

end WorkerService

end AgentRuntime
