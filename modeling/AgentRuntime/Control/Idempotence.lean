import AgentRuntime.Control.ControlPlane

/-!
# Sequences of reports

Any number of `ReportTaskResult` calls, identical, conflicting, foreign and
failing ones in any order. The first report that is answered with an OK settles
its task: what follows is recognised or refused, and changes nothing.
-/
namespace AgentRuntime

namespace ControlPlane

/-! ## One report -/

section

variable {cp : ControlPlane} {t : TaskID} {e : ExecutionID} {state : DistributedTaskState}
  {status : Status} {result : ByteString} {media : String}

/-- The record says what a report under the execution says. -/
def Carries (record : DistributedTaskRecord) (e : ExecutionID) (state : DistributedTaskState)
    (status : Status) (result : ByteString) (media : String) : Prop :=
  record.executionId = e ∧ sameCompletion record state status result media = true

/-- A report that is answered with an OK has been written down, or was before. -/
theorem carries_of_ok (h : (cp.reportTaskResult t e state status result media).1.ok = true) :
    isTerminal state = true ∧ ∃ record,
      (cp.reportTaskResult t e state status result media).2.tasks.lookup t = some record ∧
        Carries record e state status result media := by
  cases hterm : isTerminal state with
  | false => simp [reportTaskResult, hterm] at h
  | true =>
    refine ⟨rfl, ?_⟩
    simp only [reportTaskResult, hterm, not_true_eq_false, if_false] at h ⊢
    cases hl : cp.tasks.lookup t with
    | none => simp [hl] at h
    | some record =>
      simp only [hl] at h ⊢
      by_cases he : record.executionId = e
      · simp only [he, ne_eq, not_true_eq_false, if_false] at h ⊢
        cases hended : isTerminal record.state with
        | true =>
          cases hsame : sameCompletion record state status result media with
          | true =>
            simp only [if_true]
            exact ⟨record, hl, he, hsame⟩
          | false => simp [hended, hsame] at h
        | false =>
          cases hrelease : (cp.release record.nodeId record.resources).1.ok with
          | true => exact ⟨_, by simp; rfl, rfl, by simp [sameCompletion]⟩
          | false =>
            simp only [hended, hrelease, Bool.false_eq_true, if_false] at h
      · simp [he] at h

theorem Carries.terminal {record : DistributedTaskRecord} (hterm : isTerminal state = true)
    (h : Carries record e state status result media) : isTerminal record.state = true := by
  obtain ⟨-, hsame⟩ := h
  simp only [sameCompletion, Bool.and_eq_true, decide_eq_true_eq] at hsame
  rw [hsame.1.1.1]
  exact hterm

/-- A report of what the record says is recognised, and changes nothing. -/
theorem recognised {record : DistributedTaskRecord} (hterm : isTerminal state = true)
    (hl : cp.tasks.lookup t = some record) (h : Carries record e state status result media) :
    cp.reportTaskResult t e state status result media = (.OK, cp) := by
  obtain ⟨he, hsame⟩ := h
  have hended := Carries.terminal hterm ⟨he, hsame⟩
  simp [reportTaskResult, hterm, hl, he, hended, hsame]

/-- A report that is not answered with an OK changes nothing. -/
theorem reportTaskResult_refused
    (h : (cp.reportTaskResult t e state status result media).1.ok = false) :
    (cp.reportTaskResult t e state status result media).2 = cp := by
  obtain ⟨he, -⟩ | ⟨record, hl, he, hlive, hterm, hreleased, -⟩ :=
    cp.reportTaskResult_cases t e state status result media
  · exact he
  · simp [reportTaskResult, hterm, hl, he, hlive, hreleased] at h

/-- A report that is not terminal, or of an execution that the record is not of, is refused. -/
theorem reportTaskResult_foreign (h : isTerminal state = false ∨
      ∀ record, cp.tasks.lookup t = some record → record.executionId ≠ e) :
    (cp.reportTaskResult t e state status result media).1.ok = false := by
  cases hterm : isTerminal state with
  | false => simp [reportTaskResult, hterm]
  | true =>
    simp only [reportTaskResult, hterm, not_true_eq_false, if_false]
    cases hl : cp.tasks.lookup t with
    | none => rfl
    | some record =>
      have hne : record.executionId ≠ e := by
        rcases h with h | h
        · rw [hterm] at h
          cases h
        · exact h record hl
      simp [hne]

/-- A record that has ended is changed by no report. -/
theorem reportTaskResult_ended {record : DistributedTaskRecord}
    (hl : cp.tasks.lookup t = some record) (hended : isTerminal record.state = true) :
    (cp.reportTaskResult t e state status result media).2 = cp := by
  obtain ⟨he, -⟩ | ⟨record', hl', -, hlive, -⟩ :=
    cp.reportTaskResult_cases t e state status result media
  · exact he
  · cases hl.symm.trans hl'
    rw [hended] at hlive
    cases hlive

end

/-! ## Reports of any task -/

structure Report where
  taskId : TaskID
  executionId : ExecutionID
  state : DistributedTaskState
  terminalStatus : Status
  result : ByteString
  resultMediaType : String
  deriving DecidableEq

/-- What the call returns and the control plane it leaves. -/
def receive (cp : ControlPlane) (r : Report) : Status × ControlPlane :=
  cp.reportTaskResult r.taskId r.executionId r.state r.terminalStatus r.result r.resultMediaType

/-- The control plane after the reports, in order. -/
def receiveAll : List Report → ControlPlane → ControlPlane
  | [], cp => cp
  | r :: rest, cp => receiveAll rest (cp.receive r).2

/-- Of each task that is not yet settled, the first report that is answered with an OK. -/
def firstAccepted : List TaskID → List Report → ControlPlane → List Report
  | _, [], _ => []
  | settled, r :: rest, cp =>
    if (cp.receive r).1.ok ∧ ∀ t ∈ settled, t ≠ r.taskId then
      r :: firstAccepted (r.taskId :: settled) rest (cp.receive r).2
    else firstAccepted settled rest (cp.receive r).2

/-- The record has ended. -/
def Settled (cp : ControlPlane) (t : TaskID) : Prop :=
  ∃ record, cp.tasks.lookup t = some record ∧ isTerminal record.state = true

@[simp] theorem receiveAll_nil (cp : ControlPlane) : receiveAll [] cp = cp := rfl
@[simp] theorem receiveAll_cons (r : Report) (rest : List Report) (cp : ControlPlane) :
    receiveAll (r :: rest) cp = receiveAll rest (cp.receive r).2 := rfl

theorem receiveAll_append (before after : List Report) (cp : ControlPlane) :
    receiveAll (before ++ after) cp = receiveAll after (receiveAll before cp) := by
  induction before generalizing cp with
  | nil => rfl
  | cons r rest ih => exact ih (cp.receive r).2

variable {cp : ControlPlane} {r : Report} {t : TaskID}

/-- No report touches a record that has ended. -/
theorem receive_lookup {record : DistributedTaskRecord} (hl : cp.tasks.lookup t = some record)
    (hended : isTerminal record.state = true) (r : Report) :
    (cp.receive r).2.tasks.lookup t = some record := by
  by_cases ht : t = r.taskId
  · subst ht
    rw [receive, reportTaskResult_ended hl hended]
    exact hl
  · obtain ⟨he, -⟩ | ⟨record', -, -, -, -, -, he⟩ := cp.reportTaskResult_cases r.taskId
      r.executionId r.state r.terminalStatus r.result r.resultMediaType
    · rw [receive, he]
      exact hl
    · rw [receive, he]
      simpa [UnorderedMap.lookup_insert_eq, ht] using hl

theorem Settled.receive (h : Settled cp t) (r : Report) : Settled (cp.receive r).2 t := by
  obtain ⟨record, hl, hended⟩ := h
  exact ⟨record, receive_lookup hl hended r, hended⟩

theorem settled_of_ok (h : (cp.receive r).1.ok = true) : Settled (cp.receive r).2 r.taskId := by
  obtain ⟨hterm, record, hl, hcarries⟩ := carries_of_ok h
  exact ⟨record, hl, hcarries.terminal hterm⟩

theorem receiveAll_lookup {record : DistributedTaskRecord} (reports : List Report)
    (hl : cp.tasks.lookup t = some record) (hended : isTerminal record.state = true) :
    (receiveAll reports cp).tasks.lookup t = some record := by
  induction reports generalizing cp with
  | nil => exact hl
  | cons r rest ih => exact ih (receive_lookup hl hended r)

/-- Only the first accepted report of each task counts. -/
theorem receiveAll_firstAccepted (reports : List Report) {settled : List TaskID}
    {cp : ControlPlane} (h : ∀ t ∈ settled, Settled cp t) :
    receiveAll (firstAccepted settled reports cp) cp = receiveAll reports cp := by
  induction reports generalizing settled cp with
  | nil => rfl
  | cons r rest ih =>
    have hkept : ∀ t ∈ settled, Settled (cp.receive r).2 t := fun t ht => (h t ht).receive r
    simp only [firstAccepted, receiveAll_cons]
    by_cases hfirst : (cp.receive r).1.ok = true ∧ ∀ t ∈ settled, t ≠ r.taskId
    · rw [if_pos hfirst, receiveAll_cons]
      apply ih
      intro t ht
      rcases List.mem_cons.mp ht with rfl | ht
      · exact settled_of_ok hfirst.1
      · exact hkept t ht
    · rw [if_neg hfirst]
      -- the report is refused, or its task has been settled
      have hsame : (cp.receive r).2 = cp := by
        cases hok : (cp.receive r).1.ok with
        | false => exact reportTaskResult_refused hok
        | true =>
          have hmem : r.taskId ∈ settled := by
            by_contra hn
            exact hfirst ⟨hok, fun t ht he => hn (he ▸ ht)⟩
          obtain ⟨record, hl, hended⟩ := h r.taskId hmem
          exact reportTaskResult_ended hl hended
      rw [hsame] at hkept ⊢
      exact ih hkept

/-- After an accepted report the same report is recognised and any other of the task refused. -/
theorem receive_later {r later : Report} {now : ControlPlane} {record : DistributedTaskRecord}
    (hterm : isTerminal r.state = true) (htask : later.taskId = r.taskId)
    (hl : now.tasks.lookup r.taskId = some record)
    (hcarries : Carries record r.executionId r.state r.terminalStatus r.result
      r.resultMediaType) :
    (later = r → now.receive later = (.OK, now)) ∧
    (later ≠ r → (now.receive later).1.ok = false ∧ (now.receive later).2 = now) := by
  constructor
  · rintro rfl
    exact recognised hterm hl hcarries
  · intro hne
    have hlater : now.tasks.lookup later.taskId = some record := by
      rw [htask]
      exact hl
    have hsame : (now.receive later).2 = now :=
      reportTaskResult_ended hlater (hcarries.terminal hterm)
    refine ⟨?_, hsame⟩
    cases hok : (now.receive later).1.ok with
    | false => rfl
    | true =>
      -- both reports say what the record says
      exfalso
      apply hne
      obtain ⟨-, record', hl', hcarries'⟩ := carries_of_ok hok
      rw [← receive, hsame, htask] at hl'
      cases hl.symm.trans hl'
      obtain ⟨he, hfields⟩ := hcarries
      obtain ⟨he', hfields'⟩ := hcarries'
      simp only [sameCompletion, Bool.and_eq_true, decide_eq_true_eq] at hfields hfields'
      obtain ⟨⟨⟨h₁, h₂⟩, h₃⟩, h₄⟩ := hfields
      obtain ⟨⟨⟨h₁', h₂'⟩, h₃'⟩, h₄'⟩ := hfields'
      cases later
      cases r
      simp_all

end ControlPlane

end AgentRuntime
