import AgentRuntime.Library.Run
import AgentRuntime.Runtime.TaskManager

/-!
# Histories of task records

Any sequence of calls of the task manager, with arbitrary identities and
outcomes. Beside the manager the state keeps, for each task, the states its
record has gone through and the execution it was scheduled for, and the
completions for which the callback was called.
-/
namespace AgentRuntime

namespace TaskManager

/-! ## The diagram -/

/-- The edges of the lifecycle. -/
inductive Edge : ExecutionState → ExecutionState → Prop
  | enqueue : Edge .pending .queued
  | schedule : Edge .queued .scheduled
  | start : Edge .scheduled .running
  | succeed : Edge .running .succeeded
  | fail : Edge .running .failed
  | cancel : Edge .running .cancelled
  | withdraw : Edge .queued .cancelled

/-- A path of the diagram from its start to a state. -/
inductive Path : List ExecutionState → ExecutionState → Prop
  | registered : Path [.pending] .pending
  | step {states : List ExecutionState} {current next : ExecutionState}
      (path : Path states current) (edge : Edge current next) : Path (states ++ [next]) next

theorem legal_iff_edge (current next : ExecutionState) :
    legal current next = true ↔ Edge current next := by
  constructor
  · intro h
    cases current <;> cases next <;> first | exact absurd h (by decide) | constructor
  · intro h
    cases h <;> rfl

theorem Edge.not_terminal {current next : ExecutionState} (h : Edge current next) :
    current.isTerminal = false := by
  cases h <;> rfl

theorem Edge.ne {current next : ExecutionState} (h : Edge current next) : current ≠ next := by
  cases h <;> decide

/-- A task that is still queued has not passed `Scheduled`. -/
theorem Path.queued {states : List ExecutionState} (h : Path states .queued) :
    states = [.pending, .queued] := by
  obtain _ | ⟨hbefore, hedge⟩ := h
  cases hedge
  obtain _ | ⟨-, hedge⟩ := hbefore
  · rfl
  · cases hedge

/-! ## The calls -/

inductive Call where
  | register (spec : TaskSpec) (handler : TaskHandler)
  | markQueued (id : TaskID)
  | markScheduled (id : TaskID) (workerId : WorkerID) (executionId : ExecutionID)
  | markRunning (id : TaskID)
  | complete (id : TaskID) (outcome : ExecutionOutcome)
  | cancel (id : TaskID)

namespace Call

def task : Call → TaskID
  | register spec _ => spec.id
  | markQueued id | markScheduled id _ _ | markRunning id | complete id _ | cancel id => id

/-- The status the call returns, what it calls the callback with and the manager it leaves. -/
def reply (tm : TaskManager) : Call → Status × Option TaskCompletion × TaskManager
  | register spec handler => ((tm.register spec handler).1, none, (tm.register spec handler).2)
  | markQueued id => ((tm.markQueued id).1, none, (tm.markQueued id).2)
  | markScheduled id workerId executionId =>
    ((tm.markScheduled id workerId executionId).1, none,
      (tm.markScheduled id workerId executionId).2)
  | markRunning id => ((tm.markRunning id).1, none, (tm.markRunning id).2)
  | complete id outcome => tm.complete id outcome
  | cancel id => tm.cancel id

/-- The execution that the call assigns when it succeeds. -/
def assigns : Call → Option (WorkerID × ExecutionID)
  | markScheduled _ workerId executionId => some (workerId, executionId)
  | _ => none

end Call

/-- What a call does to the record of its task, and which completion it emits. -/
inductive Effect (tm : TaskManager) (c : Call) :
    Status × Option TaskCompletion × TaskManager → Prop where
  | refused (status : Status) (notOk : status.ok = false) : Effect tm c (status, none, tm)
  | registered (spec : TaskSpec) (handler : TaskHandler) (call : c = .register spec handler)
      (absent : tm.records.lookup spec.id = none) :
      Effect tm c (.OK, none, tm.store spec.id (newRecord spec handler))
  | marked (record : TaskRecord) (next : ExecutionState) (assigns : c.assigns = none)
      (lookup : tm.records.lookup c.task = some record) (edge : Edge record.state next)
      (next_eq : next = .queued ∨ next = .running) :
      Effect tm c (.OK, none, tm.store c.task { record with state := next })
  | scheduled (record : TaskRecord) (workerId : WorkerID) (executionId : ExecutionID)
      (call : c = .markScheduled c.task workerId executionId)
      (lookup : tm.records.lookup c.task = some record) (state : record.state = .queued) :
      Effect tm c (.OK, none, tm.store c.task { record with
        state := .scheduled, attempt := record.attempt + 1, worker := some workerId,
        executionId := executionId })
  | signalled (record : TaskRecord) (assigns : c.assigns = none)
      (lookup : tm.records.lookup c.task = some record) (state : record.state = .running) :
      Effect tm c (.OK, none, tm.store c.task { record with cancelRequested := true })
  | ended (record done : TaskRecord) (assigns : c.assigns = none)
      (lookup : tm.records.lookup c.task = some record) (edge : Edge record.state done.state)
      (outcome : done.state = terminalState done.terminalStatus)
      (kept : done.spec = record.spec ∧ done.worker = record.worker ∧
        done.attempt = record.attempt ∧ done.executionId = record.executionId) :
      Effect tm c (.OK, tm.notification done, tm.store c.task done)

theorem Call.effect (tm : TaskManager) (c : Call) : Effect tm c (c.reply tm) := by
  cases c with
  | register spec handler =>
    obtain ⟨status, hno, he⟩ | ⟨habsent, -, he⟩ := tm.register_cases spec handler
    · simp only [reply, he]
      exact .refused status hno
    · simp only [reply, he]
      exact .registered spec handler rfl habsent
  | markQueued id =>
    obtain ⟨status, hno, he, -⟩ | ⟨record, hl, hlegal, he⟩ :=
      tm.mark_cases id "task is not registered" .queued (fun record => record)
    · simp only [reply, TaskManager.markQueued, he]
      exact .refused status hno
    · simp only [reply, TaskManager.markQueued, he]
      exact .marked record .queued rfl hl ((legal_iff_edge _ _).mp hlegal) (.inl rfl)
  | markScheduled id workerId executionId =>
    obtain ⟨status, hno, he, -⟩ | ⟨record, hl, hlegal, he⟩ :=
      tm.mark_cases id "Task is not registered" .scheduled (fun record => { record with
        attempt := record.attempt + 1, worker := some workerId, executionId := executionId })
    · simp only [reply, TaskManager.markScheduled, he]
      exact .refused status hno
    · simp only [reply, TaskManager.markScheduled, he]
      exact .scheduled record workerId executionId rfl hl ((legal_scheduled _).mp hlegal)
  | markRunning id =>
    obtain ⟨status, hno, he, -⟩ | ⟨record, hl, hlegal, he⟩ :=
      tm.mark_cases id "task is not registered" .running (fun record => record)
    · simp only [reply, TaskManager.markRunning, he]
      exact .refused status hno
    · simp only [reply, TaskManager.markRunning, he]
      exact .marked record .running rfl hl ((legal_iff_edge _ _).mp hlegal) (.inr rfl)
  | complete id outcome =>
    obtain ⟨status, hno, he, -⟩ | ⟨record, hl, hlegal, done, rfl, he⟩ :=
      tm.complete_cases id outcome
    · simp only [reply, he]
      exact .refused status hno
    · simp only [reply, he]
      exact .ended record _ rfl hl ((legal_iff_edge _ _).mp hlegal) rfl ⟨rfl, rfl, rfl, rfl⟩
  | cancel id =>
    obtain ⟨status, hno, he, -⟩ | ⟨record, hl, hqueued, he⟩ | ⟨record, hl, hrunning, he⟩ :=
      tm.cancel_cases id
    · simp only [reply, he]
      exact .refused status hno
    · simp only [reply, he]
      refine .ended record _ rfl hl ?_ rfl ⟨rfl, rfl, rfl, rfl⟩
      rw [hqueued]
      exact .withdraw
    · simp only [reply, he]
      exact .signalled record rfl hl hrunning

/-- How the terminal states divide the statuses. -/
theorem terminalState_iff (status : Status) :
    (terminalState status = .succeeded ↔ status.ok = true) ∧
    (terminalState status = .cancelled ↔ status.isCancelled = true) ∧
    (terminalState status = .failed ↔ status.ok = false ∧ status.isCancelled = false) := by
  have hexclusive : status.ok = true → status.isCancelled = false := by
    intro h
    rw [Status.eq_OK h]
    rfl
  simp only [terminalState]
  cases hok : status.ok with
  | true => simp [hexclusive hok]
  | false => cases hcancelled : status.isCancelled <;> simp

end TaskManager

open TaskManager (Call Path)

/-! ## Sequences of calls -/

structure Lifecycle where
  manager : TaskManager
  /-- The states that the record of a task has had, in order. -/
  states : TaskID → List ExecutionState
  /-- The execution that `MarkScheduled` has assigned to a task. -/
  assigned : TaskID → Option (WorkerID × ExecutionID)
  /-- The completions that the callback has been called with. -/
  emitted : List TaskCompletion

namespace Lifecycle

/-- A new task manager in which a callback has been installed. -/
def initial : Lifecycle := ⟨⟨∅, true⟩, fun _ => [], fun _ => none, []⟩

def stateIn (tm : TaskManager) (t : TaskID) : Option ExecutionState :=
  (tm.records.lookup t).map fun record => record.state

/-- A state is written down when it differs from the one before. -/
def extend (before after : Option ExecutionState) (states : List ExecutionState) :
    List ExecutionState :=
  if before = after then states else states ++ after.toList

/-- The history after a call with this result. -/
def advance (h : Lifecycle) (c : Call) (out : Status × Option TaskCompletion × TaskManager) :
    Lifecycle where
  manager := out.2.2
  states := fun t => extend (stateIn h.manager t) (stateIn out.2.2 t) (h.states t)
  assigned := fun t =>
    if t = c.task ∧ out.1.ok then c.assigns.or (h.assigned t) else h.assigned t
  emitted := h.emitted ++ out.2.1.toList

def step (h : Lifecycle) (c : Call) : Option Lifecycle :=
  some (h.advance c (c.reply h.manager))

theorem run_total (calls : List Call) (h : Lifecycle) : ∃ h', Run.run step calls h = some h' :=
  Run.run_total (fun _ _ => ⟨_, rfl⟩) calls h

/-- The completions of one task. -/
def emittedFor (h : Lifecycle) (t : TaskID) : List TaskCompletion :=
  h.emitted.filter fun completion => completion.taskId = t

/-- What is known of a record whose task has this history. -/
structure Recorded (states : List ExecutionState) (assigned : Option (WorkerID × ExecutionID))
    (emitted : List TaskCompletion) (t : TaskID) (record : TaskRecord) : Prop where
  keyed : record.spec.id = t
  path : Path states record.state
  attempt : record.attempt = if .scheduled ∈ states then 1 else 0
  scheduled : assigned.isSome = true ↔ .scheduled ∈ states
  worker : record.worker = assigned.map Prod.fst
  executionId : record.executionId = (assigned.map Prod.snd).getD .Nil
  outcome : record.state.isTerminal = true →
    (record.state = .succeeded ↔ record.terminalStatus.ok = true) ∧
    (record.state = .cancelled ↔ record.terminalStatus.isCancelled = true) ∧
    (record.state = .failed ↔
      record.terminalStatus.ok = false ∧ record.terminalStatus.isCancelled = false)
  emitted : emitted = if record.state.isTerminal then [TaskManager.completionOf record] else []

/-- The history of a task and its record, if there is one. -/
def Documents (states : List ExecutionState) (assigned : Option (WorkerID × ExecutionID))
    (emitted : List TaskCompletion) (t : TaskID) : Option TaskRecord → Prop
  | none => states = [] ∧ assigned = none ∧ emitted = []
  | some record => Recorded states assigned emitted t record

def DocumentsTask (h : Lifecycle) (t : TaskID) : Prop :=
  Documents (h.states t) (h.assigned t) (h.emittedFor t) t (h.manager.records.lookup t)

structure Inv (h : Lifecycle) : Prop where
  callback : h.manager.completionCallback = true
  documents : ∀ t, h.DocumentsTask t

theorem inv_initial : Inv initial :=
  ⟨rfl, fun t => by simp [initial, DocumentsTask, Documents, emittedFor]⟩

theorem extend_same {before after : Option ExecutionState} (h : before = after)
    (states : List ExecutionState) : extend before after states = states := by
  simp [extend, h]

theorem extend_edge {current next : ExecutionState} (h : TaskManager.Edge current next)
    (states : List ExecutionState) :
    extend (some current) (some next) states = states ++ [next] := by
  simp [extend, h.ne]

/-- What one call does to the history of one task, said with the new record. -/
theorem Recorded.moved {states : List ExecutionState}
    {assigned : Option (WorkerID × ExecutionID)} {emitted : List TaskCompletion} {t : TaskID}
    {record : TaskRecord} (h : Recorded states assigned emitted t record)
    {next : ExecutionState} (edge : TaskManager.Edge record.state next)
    (hnext : next = .queued ∨ next = .running) :
    Recorded (states ++ [next]) assigned emitted t { record with state := next } := by
  have hlive : next.isTerminal = false := by rcases hnext with rfl | rfl <;> rfl
  have hne : ExecutionState.scheduled ≠ next := by rcases hnext with rfl | rfl <;> decide
  have hmem : ExecutionState.scheduled ∈ states ++ [next] ↔ .scheduled ∈ states := by
    simp [hne]
  constructor
  · exact h.keyed
  · exact h.path.step edge
  · rw [h.attempt]
    simp only [hmem]
  · rw [h.scheduled, hmem]
  · exact h.worker
  · exact h.executionId
  · intro hterm
    rw [hlive] at hterm
    cases hterm
  · have hbefore := h.emitted
    rw [edge.not_terminal] at hbefore
    rw [hlive]
    exact hbefore

theorem Recorded.assign {states : List ExecutionState}
    {assigned : Option (WorkerID × ExecutionID)} {emitted : List TaskCompletion} {t : TaskID}
    {record : TaskRecord} (h : Recorded states assigned emitted t record)
    (hqueued : record.state = .queued) (workerId : WorkerID) (executionId : ExecutionID) :
    Recorded (states ++ [.scheduled]) (some (workerId, executionId)) emitted t { record with
      state := .scheduled, attempt := record.attempt + 1, worker := some workerId,
      executionId := executionId } := by
  have hpath := h.path
  rw [hqueued] at hpath
  have hattempt := h.attempt
  have hbefore := h.emitted
  rw [hpath.queued] at hattempt
  rw [hqueued] at hbefore
  constructor
  · exact h.keyed
  · exact hpath.step .schedule
  · simp [hattempt]
  · simp
  · rfl
  · rfl
  · intro hterm
    cases hterm
  · exact hbefore

theorem Recorded.end {states : List ExecutionState}
    {assigned : Option (WorkerID × ExecutionID)} {emitted : List TaskCompletion} {t : TaskID}
    {record done : TaskRecord} (h : Recorded states assigned emitted t record)
    (edge : TaskManager.Edge record.state done.state)
    (houtcome : done.state = TaskManager.terminalState done.terminalStatus)
    (hkept : done.spec = record.spec ∧ done.worker = record.worker ∧
      done.attempt = record.attempt ∧ done.executionId = record.executionId) :
    Recorded (states ++ [done.state]) assigned (emitted ++ [TaskManager.completionOf done]) t
      done := by
  obtain ⟨hspec, hworker, hattempt, hexecution⟩ := hkept
  have hterm : done.state.isTerminal = true := by
    rw [houtcome]
    exact TaskManager.isTerminal_terminalState _
  have hne : ExecutionState.scheduled ≠ done.state := by
    intro he
    rw [← he] at hterm
    cases hterm
  have hmem : ExecutionState.scheduled ∈ states ++ [done.state] ↔ .scheduled ∈ states := by
    simp [hne]
  constructor
  · rw [hspec]
    exact h.keyed
  · exact h.path.step edge
  · rw [hattempt, h.attempt]
    simp only [hmem]
  · rw [h.scheduled, hmem]
  · rw [hworker]
    exact h.worker
  · rw [hexecution]
    exact h.executionId
  · intro _
    rw [houtcome]
    exact TaskManager.terminalState_iff _
  · have hbefore := h.emitted
    rw [edge.not_terminal] at hbefore
    simp only [Bool.false_eq_true, if_false] at hbefore
    rw [hbefore, hterm]
    rfl

theorem Recorded.signal {states : List ExecutionState}
    {assigned : Option (WorkerID × ExecutionID)} {emitted : List TaskCompletion} {t : TaskID}
    {record : TaskRecord} (h : Recorded states assigned emitted t record) :
    Recorded states assigned emitted t { record with cancelRequested := true } :=
  ⟨h.keyed, h.path, h.attempt, h.scheduled, h.worker, h.executionId, h.outcome, h.emitted⟩

theorem Recorded.register (spec : TaskSpec) (handler : TaskHandler) :
    Recorded [.pending] none [] spec.id (TaskManager.newRecord spec handler) where
  keyed := rfl
  path := .registered
  attempt := by simp [TaskManager.newRecord]
  scheduled := by simp
  worker := rfl
  executionId := rfl
  outcome := by
    intro hterm
    cases hterm
  emitted := rfl

/-- A call that stores a record for its task leaves the other tasks as they are. -/
theorem inv_store {h : Lifecycle} (hi : Inv h) {c : Call} {status : Status}
    {completion : Option TaskCompletion} {record : TaskRecord}
    (hcompletion : ∀ e, completion = some e → e.taskId = c.task)
    (htask : Recorded (extend (stateIn h.manager c.task) (some record.state) (h.states c.task))
      (if status.ok then c.assigns.or (h.assigned c.task) else h.assigned c.task)
      (h.emittedFor c.task ++ completion.toList) c.task record) :
    Inv (h.advance c (status, completion, h.manager.store c.task record)) := by
  refine ⟨hi.callback, ?_⟩
  intro t
  by_cases ht : t = c.task
  · subst ht
    have hcompletions : completion.toList.filter (fun e => e.taskId = c.task) =
        completion.toList := by
      rw [List.filter_eq_self]
      intro e he
      simpa using hcompletion e (Option.mem_toList.mp he)
    simpa [DocumentsTask, Documents, advance, stateIn, emittedFor, hcompletions] using htask
  · have hcompletions : completion.toList.filter (fun e => e.taskId = t) = [] := by
      rw [List.filter_eq_nil_iff]
      intro e he
      have htaskId := hcompletion e (Option.mem_toList.mp he)
      simpa [htaskId] using Ne.symm ht
    have hbefore := hi.documents t
    simpa [DocumentsTask, advance, stateIn, emittedFor, hcompletions, ht, extend_same]
      using hbefore

theorem Inv.step {h h' : Lifecycle} {c : Call} (hi : Inv h) (hs : step h c = some h') :
    Inv h' := by
  cases hs
  have hbefore := hi.documents c.task
  have heffect := c.effect h.manager
  generalize c.reply h.manager = out at heffect
  cases heffect with
  | refused status hno =>
    refine ⟨hi.callback, fun t => ?_⟩
    simpa [DocumentsTask, advance, emittedFor, extend_same, hno] using hi.documents t
  | registered spec handler hc habsent =>
    subst hc
    apply inv_store hi (by simp)
    simp only [DocumentsTask, Call.task, habsent, Documents] at hbefore ⊢
    obtain ⟨hstates, hassigned, hemitted⟩ := hbefore
    simpa [stateIn, habsent, extend, hstates, hassigned, hemitted, Call.assigns,
      TaskManager.newRecord] using Recorded.register spec handler
  | marked record next hassigns hl edge hnext =>
    simp only [DocumentsTask, hl, Documents] at hbefore
    apply inv_store hi (by simp)
    simpa [stateIn, hl, extend_edge edge, hassigns] using hbefore.moved edge hnext
  | scheduled record workerId executionId hc hl hqueued =>
    simp only [DocumentsTask, hl, Documents] at hbefore
    apply inv_store hi (by simp)
    have hassigns : c.assigns = some (workerId, executionId) := by
      rw [hc]
      rfl
    simpa [stateIn, hl, hqueued, extend_edge .schedule, hassigns]
      using hbefore.assign hqueued workerId executionId
  | signalled record hassigns hl hrunning =>
    simp only [DocumentsTask, hl, Documents] at hbefore
    apply inv_store hi (by simp)
    simpa [stateIn, hl, extend_same, hassigns] using hbefore.signal
  | ended record done hassigns hl edge houtcome hkept =>
    simp only [DocumentsTask, hl, Documents] at hbefore
    have hnotified : h.manager.notification done = some (TaskManager.completionOf done) := by
      simp [TaskManager.notification, hi.callback]
    rw [hnotified]
    apply inv_store hi
    · rintro e ⟨⟩
      simp only [TaskManager.completionOf, hkept.1]
      exact hbefore.keyed
    · simpa [stateIn, hl, extend_edge edge, hassigns] using hbefore.end edge houtcome hkept

/-! ## The result -/

/-- A record that has ended is changed by no call. -/
theorem step_ended {h h' : Lifecycle} {c : Call} {t : TaskID} {record : TaskRecord}
    (hs : step h c = some h') (hl : h.manager.records.lookup t = some record)
    (hended : record.state.isTerminal = true) : h'.manager.records.lookup t = some record := by
  cases hs
  have heffect := c.effect h.manager
  generalize c.reply h.manager = out at heffect
  -- a call stores a record only where there was none or one that had not ended
  have hlive : ∀ old new : TaskRecord, h.manager.records.lookup c.task = some old →
      old.state.isTerminal = false →
      (h.manager.store c.task new).records.lookup t = some record := by
    intro old new hold hnot
    have hne : t ≠ c.task := by
      rintro rfl
      cases hl.symm.trans hold
      rw [hended] at hnot
      cases hnot
    simpa [hne] using hl
  cases heffect with
  | refused status hno => exact hl
  | registered spec handler hc habsent =>
    have hne : t ≠ spec.id := by
      rintro rfl
      rw [hl] at habsent
      cases habsent
    simpa [advance, hne] using hl
  | marked old next hassigns hold edge hnext => exact hlive old _ hold edge.not_terminal
  | scheduled old workerId executionId hc hold hqueued =>
    exact hlive old _ hold (by rw [hqueued]; rfl)
  | signalled old hassigns hold hrunning => exact hlive old _ hold (by rw [hrunning]; rfl)
  | ended old done hassigns hold edge houtcome hkept =>
    exact hlive old done hold edge.not_terminal

/-- After any sequence of calls, the history of every record is a path of the lifecycle which its
fields agree with, each record that has ended was announced once, and it is final. -/
theorem history_documented (calls : List Call) : ∃ h, Run.run step calls initial = some h ∧
    (∀ t record, h.manager.records.lookup t = some record →
      Recorded (h.states t) (h.assigned t) (h.emittedFor t) t record) ∧
    (∀ t, h.manager.records.lookup t = none → h.emittedFor t = []) ∧
    (∀ c : Call, (c.reply h.manager).1.ok = false → h.advance c (c.reply h.manager) = h) ∧
    ∀ t record, h.manager.records.lookup t = some record → record.state.isTerminal = true →
      ∀ more h', Run.run step more h = some h' → h'.manager.records.lookup t = some record := by
  obtain ⟨h, hr⟩ := run_total calls initial
  have hi : Inv h := Run.invariant_run (fun _ _ _ hi hs => hi.step hs) hr inv_initial
  refine ⟨h, hr, ?recorded, ?absent, ?refused, ?final⟩
  case recorded =>
    intro t record hl
    have hdocuments := hi.documents t
    rw [DocumentsTask, hl] at hdocuments
    exact hdocuments
  case absent =>
    intro t hl
    have hdocuments := hi.documents t
    rw [DocumentsTask, hl] at hdocuments
    exact hdocuments.2.2
  case refused =>
    intro c hno
    have heffect := c.effect h.manager
    generalize c.reply h.manager = out at heffect hno
    cases heffect with
    | refused status => simp [advance, extend_same, hno]
    | registered | marked | scheduled | signalled | ended => cases hno
  case final =>
    intro t record hl hended more h' hmore
    exact Run.invariant_run (I := fun u => u.manager.records.lookup t = some record)
      (fun _ _ _ hu hs => step_ended hs hu hended) hmore hl

end Lifecycle

end AgentRuntime
