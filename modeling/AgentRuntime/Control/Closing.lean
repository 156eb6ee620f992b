import AgentRuntime.Control.TaskSteps

/-!
# How a task is closed

A task that has been sent is closed once its record is terminal or gone, and
nothing opens it again. A report under its execution closes it, unless the
release of the node is refused.
-/
namespace AgentRuntime

namespace ControlSystem

variable {s u : State} {a : Action} {t : TaskID}

/-- The record of the task has been published, whatever has become of it. -/
def SubmitPhase.isSent : SubmitPhase → Bool
  | .published _ | .undelivered _ _ | .accepted _ | .erased _ _ | .rolledBack _ _ => true
  | .unused | .refused _ | .reserved _ => false

/-- The record of the task has been published, and no rollback has erased it. -/
def SubmitPhase.isListed : SubmitPhase → Bool
  | .published _ | .undelivered _ _ | .accepted _ => true
  | .unused | .refused _ | .reserved _ | .erased _ _ | .rolledBack _ _ => false

/-- The record is there and not terminal. -/
def State.isOpen (s : State) (t : TaskID) : Bool :=
  (s.record t).any fun record => !isTerminal record.state

/-- The node of the record is registered and has as much in use as the task asked for. -/
def State.canRelease (s : State) (t : TaskID) : Bool :=
  (s.record t).all fun record => (s.registry.poolOf record.nodeId).any fun registered =>
    registered.2.canRelease record.resources

theorem isOpen_of_record {record : DistributedTaskRecord} (h : s.record t = some record) :
    s.isOpen t = !isTerminal record.state := by
  simp [State.isOpen, h]

theorem isOpen_congr (h : u.record t = s.record t) : u.isOpen t = s.isOpen t := by
  simp only [State.isOpen, h]

theorem TaskStep.isSent (h : TaskStep s u a t) (hs : (s.phase t).isSent = true) :
    (u.phase t).isSent = true := by
  cases h with
  | other hphase | requested _ _ hphase | ended _ _ hphase => rwa [hphase]
  | refused _ hphase | reserved _ hphase | published _ _ hphase =>
    rw [hphase] at hs
    cases hs
  | delivered _ _ _ _ _ hphase' | undelivered _ _ _ hphase' | erased _ _ _ _ hphase'
  | rolledBack _ _ _ _ hphase' =>
    rw [hphase']
    rfl

theorem TaskStep.closed (h : TaskStep s u a t) (hs : (s.phase t).isSent = true)
    (hclosed : s.isOpen t = false) : u.isOpen t = false := by
  cases h with
  | other _ hrecord | delivered _ _ _ _ _ _ hrecord | undelivered _ _ _ _ hrecord
  | rolledBack _ _ _ _ _ hrecord =>
    rw [isOpen_congr hrecord]
    exact hclosed
  | refused _ hphase | reserved _ hphase | published _ _ hphase =>
    rw [hphase] at hs
    cases hs
  | erased _ _ _ _ _ hrecord => simp [State.isOpen, hrecord]
  | requested old _ _ hold hlive =>
    rw [isOpen_of_record hold, hlive] at hclosed
    cases hclosed
  | ended _ new _ _ _ hnew hterm =>
    rw [isOpen_of_record hnew, hterm]
    rfl

theorem release_of_canRelease {record : DistributedTaskRecord} (h : s.record t = some record)
    (hcan : s.canRelease t = true) :
    (s.registry.release record.nodeId record.resources).1.ok = true := by
  rw [State.canRelease, h, Option.all_some] at hcan
  exact NodeRegistry.release_ok hcan

/-- A report of the task's own execution closes the task. -/
theorem report_closes (hrec : Recorded s) {e : ExecutionID} {state : DistributedTaskState}
    {status : Status} {result : ByteString} {media : String}
    (hstep : step s (.report t e state status result media) = some u) {call : SubmitCall}
    (hcall : s.callOf t = some call) (he : call.executionId = e) (hterm : isTerminal state = true)
    (hcan : s.isOpen t = true → s.canRelease t = true) : u.isOpen t = false := by
  obtain ⟨-, ⟨rfl, hno⟩ | ⟨record, hrecord, -, -, -, -, rfl⟩⟩ := step_report hstep
  · cases hopen : u.isOpen t with
    | false => rfl
    | true =>
      -- the record is that of the call, so only the release can have stopped the report
      simp only [State.isOpen, Option.any_eq_true] at hopen
      obtain ⟨record, hrecord, hlive⟩ := hopen
      obtain ⟨call', hsame, hphase⟩ := hrec t record hrecord
      have hcall' : u.callOf t = some call' := by
        obtain hphase | ⟨status, hphase⟩ | hphase := hphase <;>
          rw [State.callOf, hphase] <;> rfl
      rw [hcall] at hcall'
      cases hcall'
      have hrefused := hno record hrecord (hsame.executionId.trans he) (by simpa using hlive) hterm
      rw [release_of_canRelease hrecord (hcan ?_)] at hrefused
      · cases hrefused
      · rw [isOpen_of_record hrecord]
        exact hlive
  · refine (isOpen_of_record ((record_of_insert rfl t).trans (if_pos rfl))).trans ?_
    simp [hterm]

/-! ## What is known of the records -/

/-- A published record stays until a rollback, and its node has been released once it is
terminal. -/
structure Kept (given : List TaskID) (s : State) : Prop where
  recorded : Recorded s
  listed : ∀ t, (s.phase t).isListed = true → (s.record t).isSome = true
  released : ∀ t record, s.record t = some record → isTerminal record.state = true → t ∈ given

theorem kept_initial : Kept [] .initial where
  recorded := recorded_initial
  listed t h := by cases h
  released t record h := by cases h

theorem TaskStep.listed (h : TaskStep s u a t)
    (hs : (s.phase t).isListed = true → (s.record t).isSome = true)
    (hu : (u.phase t).isListed = true) : (u.record t).isSome = true := by
  cases h with
  | other hphase hrecord =>
    rw [hphase] at hu
    rw [hrecord]
    exact hs hu
  | refused _ _ hphase' | reserved _ _ hphase' | erased _ _ _ _ hphase'
  | rolledBack _ _ _ _ hphase' =>
    rw [hphase'] at hu
    cases hu
  | published _ _ _ _ hrecord =>
    rw [hrecord]
    split
    · rfl
    · rename_i hsome
      exact Option.isSome_iff_ne_none.mpr hsome
  | delivered _ _ _ _ hphase _ hrecord | undelivered _ _ hphase _ hrecord =>
    rw [hrecord]
    exact hs (by rw [hphase]; rfl)
  | requested _ _ _ _ _ hnew | ended _ _ _ _ _ hnew =>
    rw [hnew]
    rfl

/-- A record becomes terminal with the release of its node. -/
theorem TaskStep.released (h : TaskStep s u a t) (hrec : Recorded s)
    {record : DistributedTaskRecord} (hrecord : u.record t = some record)
    (hterm : isTerminal record.state = true) :
    s.record t = some record ∨ t ∈ givenBack s a := by
  cases h with
  | other _ hsame | delivered _ _ _ _ _ _ hsame | undelivered _ _ _ _ hsame
  | rolledBack _ _ _ _ _ hsame | refused _ _ _ hsame | reserved _ _ _ hsame =>
    exact .inl (hsame ▸ hrecord)
  | published call _ hphase _ hnew =>
    -- what is published is not terminal
    have hnone := hrec.none (t := t) (by simp [hphase]) (by simp [hphase]) (by simp [hphase])
    rw [hnew, if_pos hnone] at hrecord
    cases hrecord
    cases hterm
  | erased _ _ _ _ _ hnone =>
    rw [hnone] at hrecord
    cases hrecord
  | requested _ _ _ _ _ hnew hlive =>
    rw [hnew] at hrecord
    cases hrecord
    rw [hlive] at hterm
    cases hterm
  | ended _ _ _ _ _ _ _ _ hgiven =>
    rw [hgiven]
    exact .inr List.mem_cons_self

theorem Kept.step {given : List TaskID} (h : Kept given s) (hstep : step s a = some u) :
    Kept (given ++ givenBack s a) u where
  recorded := h.recorded.step hstep
  listed t := (step_task hstep t).listed (h.listed t)
  released t record hrecord hterm := by
    obtain hbefore | hgiven := (step_task hstep t).released h.recorded hrecord hterm
    · exact List.mem_append_left _ (h.released t record hbefore hterm)
    · exact List.mem_append_right _ hgiven

/-- A task that is on record and closed has a terminal record, and its node has been released. -/
theorem Kept.terminal {given : List TaskID} (h : Kept given s)
    (hlisted : (s.phase t).isListed = true) (hclosed : s.isOpen t = false) :
    ∃ record, s.record t = some record ∧ isTerminal record.state = true ∧ t ∈ given := by
  obtain ⟨record, hrecord⟩ := Option.isSome_iff_exists.mp (h.listed t hlisted)
  have hterm : isTerminal record.state = true := by
    rw [isOpen_of_record hrecord] at hclosed
    simpa using hclosed
  exact ⟨record, hrecord, hterm, h.released t record hrecord hterm⟩

end ControlSystem

end AgentRuntime
