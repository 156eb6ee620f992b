import AgentRuntime.Common.Int64
import AgentRuntime.Library.Waiting
import AgentRuntime.Local.Completions
import AgentRuntime.Local.Dispatching
import AgentRuntime.Local.Potential

/-!
# GetResult

A caller of `GetResult` sleeps on the condition variable of the record until the
task is terminal or the timeout has passed. Every caller is told the same, and
nobody sleeps on a task that is terminal. When the runtime comes to rest, nobody
sleeps at all.
-/
namespace AgentRuntime

/-- The arguments of `GetResult`; the timeout is in milliseconds. -/
structure ResultCall where
  id : TaskID
  /-- The output is not null. -/
  out : Bool
  timeout : Int
  deriving DecidableEq

/-- `std::chrono::milliseconds::max()`, the default. -/
def noTimeout : Int := int64Max

/-- What the caller gets: a status, and what is written to the output. -/
abbrev ResultReply := Status × Option ByteString

namespace TaskManager

/-- `GetResult` before it waits. -/
def resultRefusal (tm : TaskManager) (call : ResultCall) : Option ResultReply :=
  if !call.out then some (.InvalidArgument "result output must not be null", none)
  else
    match tm.records.lookup call.id with
    | none => some (.NotFound "task is not registered", none)
    | some _ => none

/-- `GetResult` at its end. Only a successful execution has a result. -/
def resultOf (record : TaskRecord) : ResultReply :=
  if !record.terminalStatus.ok then (record.terminalStatus, none)
  else (.OK, some record.result)

def resultAnswer (tm : TaskManager) (call : ResultCall) : Option ResultReply :=
  (tm.records.lookup call.id).bind fun record =>
    if record.state.isTerminal then some (resultOf record) else none

/-- `Complete` reaches its `notify_all`. -/
def completeNotifies (tm : TaskManager) (id : TaskID) (outcome : ExecutionOutcome) : Bool :=
  (tm.complete id outcome).1.ok

/-- `Cancel` reaches its `notify_all`. -/
def cancelNotifies (tm : TaskManager) (id : TaskID) : Bool :=
  ((tm.records.lookup id).any fun record => record.state = .queued) && (tm.cancel id).1.ok

end TaskManager

namespace LocalSystem

/-- The section notifies the condition variable of the record. -/
def notifiesResult (s : State) (a : Action) (call : ResultCall) : Bool :=
  match a with
  | .call .cancelTask =>
    match s.holder with
    | some (.cancelTask _ t _) => t = call.id && s.taskManager.cancelNotifies t
    | _ => false
  | .thread w .complete =>
    match (s.worker w).thread with
    | .finished work outcome =>
      work.spec.id = call.id && s.taskManager.completeNotifies work.spec.id outcome
    | _ => false
  | _ => false

def resultMonitor : Waiting.Monitor State Action ResultCall ResultReply where
  step := step
  refusal s := s.taskManager.resultRefusal
  answer s := s.taskManager.resultAnswer
  notifies := notifiesResult
  expires call := call.timeout ≠ noTimeout

/-! ## A notification is the end of a job -/

variable {s u : State} {x y : Dispatcher.State TaskID WorkerID Outcome}

/-- The reply that goes with an outcome. -/
def replyOf (outcome : Outcome) : ResultReply :=
  if !outcome.2.1.ok then (outcome.2.1, none) else (.OK, some outcome.2.2)

theorem answer_of_record {record : TaskRecord} {call : ResultCall}
    (hl : s.record call.id = some record) (hterm : record.state.isTerminal = true) :
    s.taskManager.resultAnswer call = some (TaskManager.resultOf record) := by
  have hl' : s.taskManager.records.lookup call.id = some record := hl
  simp [TaskManager.resultAnswer, hl', hterm]

/-- A caller is told the outcome of the job. -/
theorem Dispatches.answer_iff (h : Dispatches x s) (call : ResultCall) (reply : ResultReply) :
    s.taskManager.resultAnswer call = some reply ↔
      ∃ outcome, x.phase call.id = some (.done outcome) ∧ reply = replyOf outcome := by
  rw [h.phase]
  cases hl : s.record call.id with
  | none =>
    have hl' : s.taskManager.records.lookup call.id = none := hl
    simp [TaskManager.resultAnswer, hl']
  | some record =>
    cases hterm : record.state.isTerminal with
    | true =>
      rw [answer_of_record hl hterm]
      simp only [Option.bind_some, jobPhase_of_terminal hterm, Option.some.injEq,
        Dispatcher.Phase.done.injEq]
      exact ⟨fun h => ⟨_, rfl, h.symm⟩, by rintro ⟨_, rfl, rfl⟩; rfl⟩
    | false =>
      have hl' : s.taskManager.records.lookup call.id = some record := hl
      simp only [TaskManager.resultAnswer, hl', Option.bind_some, hterm]
      cases hs : record.state <;> simp [hs, ExecutionState.isTerminal, jobPhase] at hterm ⊢

/-- A queued task can be cancelled, and its waiters are notified. -/
theorem cancelNotifies_iff (tm : TaskManager) (t : TaskID) :
    tm.cancelNotifies t = true ↔ (tm.records.lookup t).map TaskRecord.state = some .queued := by
  cases hl : tm.records.lookup t with
  | none => simp [TaskManager.cancelNotifies, hl]
  | some record =>
    by_cases hs : record.state = .queued
    · simp [TaskManager.cancelNotifies, TaskManager.cancel, hl, hs, TaskManager.legal]
    · simp [TaskManager.cancelNotifies, hl, hs]

theorem cancelActions_ends (t t' : TaskID) (state : Option ExecutionState) :
    (∃ b ∈ cancelActions t state, b.ends t') ↔ t = t' ∧ state = some .queued := by
  cases state with
  | none => simp [cancelActions]
  | some state => cases state <;> simp [cancelActions, Dispatcher.Action.ends]

/-- The notification is sent by the section that ends the job. -/
theorem notifies_iff (s : State) (a : Action) (call : ResultCall) :
    notifiesResult s a call = true ↔ ∃ b ∈ jobActions s a, b.ends call.id := by
  cases a with
  | call a =>
    cases a with
    | cancelTask =>
      by_cases hc : ∃ k t queued, s.holder = some (.cancelTask k t queued)
      · obtain ⟨k, t, queued, hholder⟩ := hc
        simp only [notifiesResult, jobActions, hholder, Bool.and_eq_true, decide_eq_true_eq,
          cancelNotifies_iff, cancelActions_ends]
        rfl
      · have hno : notifiesResult s (.call .cancelTask) call = false := by
          simp only [notifiesResult]
          split
          · exact absurd ⟨_, _, _, by assumption⟩ hc
          · rfl
        have hnil : jobActions s (.call .cancelTask) = [] := by
          simp only [jobActions]
          split
          · exact absurd ⟨_, _, _, by assumption⟩ hc
          · rfl
        simp [hno, hnil]
    | enqueueMark =>
      simp only [notifiesResult, jobActions]
      split
      · split <;> simp [Dispatcher.Action.ends]
      · simp
    | _ => simp [notifiesResult, jobActions]
  | loop a =>
    cases a with
    | tryMark executionId =>
      simp only [notifiesResult, jobActions]
      split
      · split <;> simp [Dispatcher.Action.ends]
      · simp
    | _ => simp [notifiesResult, jobActions]
  | thread w a =>
    cases a with
    | complete =>
      by_cases hc : ∃ work outcome, (s.worker w).thread = .finished work outcome
      · obtain ⟨work, outcome, hthread⟩ := hc
        simp only [notifiesResult, jobActions, TaskManager.completeNotifies, hthread]
        split
        · rename_i hok
          simp [hok, Dispatcher.Action.ends]
        · rename_i hno
          simp [hno]
      · have hno : notifiesResult s (.thread w .complete) call = false := by
          simp only [notifiesResult]
          split
          · exact absurd ⟨_, _, by assumption⟩ hc
          · rfl
        have hnil : jobActions s (.thread w .complete) = [] := by
          simp only [jobActions]
          split
          · exact absurd ⟨_, _, by assumption⟩ hc
          · rfl
        simp [hno, hnil]
    | markRunning =>
      simp only [notifiesResult, jobActions]
      split
      · split <;> simp [Dispatcher.Action.ends]
      · simp
    | _ => simp [notifiesResult, jobActions]
  | lifecycle a => simp [notifiesResult, jobActions]
  | wake waiter => simp [notifiesResult, jobActions]

/-- The runtime with its jobs is what the callers of `GetResult` rely on. -/
theorem lawful {C : State → Action → Prop} {I : State → Prop} (hinv : ∀ s, I s → Inv s)
    (hjobs : ∀ s, I s → ∃ x, Dispatches x s)
    (hkeeps : ∀ s a u, I s → C s a → step s a = some u → I u) :
    Waiting.Lawful resultMonitor C I where
  keeps := hkeeps
  stays s a u call reply hs _ hstep hanswer := by
    obtain ⟨x, hd⟩ := hjobs s hs
    obtain ⟨y, hy, hdy⟩ := step_advances hstep (hinv s hs) hd
    obtain ⟨outcome, hdone, rfl⟩ := (hd.answer_iff call reply).mp hanswer
    have hstays := (Dispatcher.run_done hy hd.wellFormed call.id).1 outcome hdone
    exact (hdy.answer_iff call _).mpr ⟨outcome, hstays, rfl⟩
  notifies s a u call hs _ hstep hanswer := by
    obtain ⟨x, hd⟩ := hjobs s hs
    obtain ⟨y, hy, hdy⟩ := step_advances hstep (hinv s hs) hd
    have hlive : ¬ ∃ outcome, x.phase call.id = some (.done outcome) := by
      rintro ⟨outcome, hdone⟩
      have := (hd.answer_iff call _).mpr ⟨outcome, hdone, rfl⟩
      exact absurd (hanswer.symm.trans this) (by simp)
    have hiff := (Dispatcher.run_done hy hd.wellFormed call.id).2
    simp only [hlive, false_or] at hiff
    change notifiesResult s a call = true ↔ (u.taskManager.resultAnswer call).isSome = true
    rw [notifies_iff, ← hiff, Option.isSome_iff_exists]
    constructor
    · rintro ⟨outcome, hdone⟩
      exact ⟨_, (hdy.answer_iff call _).mpr ⟨outcome, hdone, rfl⟩⟩
    · rintro ⟨reply, hreply⟩
      obtain ⟨outcome, hdone, -⟩ := (hdy.answer_iff call reply).mp hreply
      exact ⟨outcome, hdone⟩

/-! ## What the callers are told -/

/-- The runtime with the callers of `GetResult`. -/
abbrev Serving := Waiting.State State ResultCall ResultReply

/-- What the completion callback is told, as a reply. -/
def completionReply (completion : TaskCompletion) : ResultReply :=
  if !completion.status.ok then (completion.status, none) else (.OK, some completion.result)

/-- The ways in which a caller can wait and return after a run from a new runtime. -/
structure ResultsFinal (as : List (Waiting.Action Action ResultCall)) (new : State)
    (s : Serving) : Prop where
  /-- Only the invalid are refused, and those whose task was not registered when they came. -/
  refused : ∀ w ∈ s.waiters, ∀ reply, w.phase = .refused reply →
    w.call.out = false ∧ reply = (.InvalidArgument "result output must not be null", none) ∨
    reply = (.NotFound "task is not registered", none) ∧ ∃ before after v,
      as = before ++ .call w.call :: after ∧
      Run.run resultMonitor.next before ⟨new, []⟩ = some v ∧ v.system.record w.call.id = none
  /-- Nobody sleeps on a terminal task. -/
  asleep : ∀ w ∈ s.waiters, w.phase = .asleep →
    ∃ record, s.system.record w.call.id = some record ∧ record.state.isTerminal = false
  /-- Everybody is told what the terminal record says now. -/
  told : ∀ w ∈ s.waiters, ∀ reply, w.phase = .told reply →
    ∃ record, s.system.record w.call.id = some record ∧ record.state.isTerminal = true ∧
      reply = TaskManager.resultOf record
  late : ∀ w ∈ s.waiters, w.phase = .late → w.call.timeout ≠ noTimeout
  /-- And the same as the completion callback. -/
  callback : ∀ w ∈ s.waiters, ∀ reply, w.phase = .told reply → ∀ r completion,
    completion? s.system r = some completion → completion.taskId = w.call.id →
      reply = completionReply completion

theorem answer_terminal {call : ResultCall} {reply : ResultReply}
    (h : s.taskManager.resultAnswer call = some reply) :
    ∃ record, s.record call.id = some record ∧ record.state.isTerminal = true ∧
      reply = TaskManager.resultOf record := by
  simp only [TaskManager.resultAnswer, Option.bind_eq_some_iff] at h
  obtain ⟨record, hl, hreply⟩ := h
  split at hreply
  · exact ⟨record, hl, by assumption, (Option.some.inj hreply).symm⟩
  · cases hreply

theorem answer_live {call : ResultCall} {record : TaskRecord}
    (h : s.taskManager.resultAnswer call = none) (hl : s.record call.id = some record) :
    record.state.isTerminal = false := by
  by_contra hterm
  rw [Bool.not_eq_false] at hterm
  rw [answer_of_record hl hterm] at h
  cases h

theorem refusal_cases {call : ResultCall} {reply : ResultReply}
    (h : s.taskManager.resultRefusal call = some reply) :
    call.out = false ∧ reply = (.InvalidArgument "result output must not be null", none) ∨
    s.record call.id = none ∧ reply = (.NotFound "task is not registered", none) := by
  simp only [TaskManager.resultRefusal] at h
  split at h
  · rename_i hout
    exact .inl ⟨by simpa using hout, (Option.some.inj h).symm⟩
  · split at h
    · exact .inr ⟨by assumption, (Option.some.inj h).symm⟩
    · cases h

theorem record_of_admitted {call : ResultCall} (h : s.taskManager.resultRefusal call = none) :
    ∃ record, s.record call.id = some record := by
  simp only [TaskManager.resultRefusal] at h
  split at h
  · cases h
  · split at h
    · cases h
    · exact ⟨_, by assumption⟩

theorem step_keeps_record {a : Action} (h : step s a = some u) (hi : Inv s) {t : TaskID}
    (ht : ∃ record, s.record t = some record) : ∃ record, u.record t = some record := by
  obtain ⟨record, hl⟩ := ht
  have hstep := step_taskStep h hi t
  rw [stateOf_of_lookup hl] at hstep
  obtain ⟨z, hz⟩ := hstep.kept
  rw [stateOf_record, Option.map_eq_some_iff] at hz
  obtain ⟨record', hl', -⟩ := hz
  exact ⟨record', hl'⟩

/-- What the callers rely on. -/
structure Answerable (s : State) : Prop where
  inv : Inv s
  told : Told s
  dispatches : ∃ x, Dispatches x s

theorem answerable_initial (workerIds : List WorkerID) (capacity : ResourceSet)
    (callback : Bool) : Answerable (.initial workerIds capacity callback) where
  inv := inv_initial workerIds capacity callback
  told := told_initial workerIds capacity callback
  dispatches := ⟨.empty, dispatches_initial workerIds capacity callback⟩

theorem step_answerable {a : Action} (h : step s a = some u) (hs : Answerable s) : Answerable u where
  inv := step_inv h hs.inv
  told := step_told h hs.inv hs.told
  dispatches := by
    obtain ⟨x, hd⟩ := hs.dispatches
    obtain ⟨y, -, hdy⟩ := step_advances h hs.inv hd
    exact ⟨y, hdy⟩

theorem lawful_answerable : Waiting.Lawful resultMonitor (fun _ _ => True) Answerable :=
  lawful (fun _ hs => hs.inv) (fun _ hs => hs.dispatches) (fun _ _ _ hs _ h => step_answerable h hs)

/-- Whoever is answered has been told what the terminal record still says. -/
theorem results_final {workerIds : List WorkerID} {capacity : ResourceSet} {callback : Bool}
    {as : List (Waiting.Action Action ResultCall)} {s : Serving}
    (h : Run.run resultMonitor.next as ⟨.initial workerIds capacity callback, []⟩ = some s) :
    ResultsFinal as (.initial workerIds capacity callback) s := by
  have hkept : ∀ (s : Serving) (a : Waiting.Action Action ResultCall) (u : Serving),
      (Waiting.Sound resultMonitor Answerable s ∧ ∀ w ∈ s.waiters,
        (∀ reply, w.phase ≠ .refused reply) → ∃ record, s.system.record w.call.id = some record) →
      resultMonitor.next s a = some u →
      (Waiting.Sound resultMonitor Answerable u ∧ ∀ w ∈ u.waiters,
        (∀ reply, w.phase ≠ .refused reply) → ∃ record, u.system.record w.call.id = some record) := by
    rintro s a u ⟨hs, hknown⟩ hstep
    have hon : Waiting.OnSystem (fun _ _ => True) s a := by cases a <;> trivial
    refine ⟨Waiting.next_sound lawful_answerable hstep hon hs, ?_⟩
    exact Waiting.next_admitted (P := fun s call => ∃ record, s.record call.id = some record)
      (fun _ _ => record_of_admitted)
      (fun _ _ _ _ hi _ hstep => step_keeps_record hstep hi.inv) hstep hon hs hknown
  obtain ⟨hs, hknown⟩ := Run.invariant_run hkept h
    ⟨⟨answerable_initial workerIds capacity callback, by simp⟩, by simp⟩
  refine ⟨fun w hw reply hphase => ?_, fun w hw hphase => ?_, fun w hw reply hphase => ?_,
    fun w hw hphase => ?_, fun w hw reply hphase r completion hr ht => ?_⟩
  · obtain ⟨before, after, v, heq, hv, hrefusal⟩ := Waiting.refused_run h w hw reply hphase
    obtain hnull | ⟨hnone, hreply⟩ := refusal_cases hrefusal
    · exact .inl hnull
    · exact .inr ⟨hreply, before, after, v, heq, hv, hnone⟩
  · obtain ⟨record, hl⟩ := hknown w hw (by simp [hphase])
    have hsound := hs.waiters w hw
    simp only [Waiting.Waiter.Sound, hphase] at hsound
    exact ⟨record, hl, answer_live hsound hl⟩
  · have hsound := hs.waiters w hw
    simp only [Waiting.Waiter.Sound, hphase] at hsound
    exact answer_terminal hsound
  · have hsound := hs.waiters w hw
    simp only [Waiting.Waiter.Sound, hphase] at hsound
    simpa [resultMonitor] using hsound
  · have hsound := hs.waiters w hw
    simp only [Waiting.Waiter.Sound, hphase] at hsound
    obtain ⟨record, hl, -, rfl⟩ := answer_terminal hsound
    obtain ⟨own, hown, -, rfl⟩ := hs.system.told r completion hr
    rw [ht, hl] at hown
    cases hown
    rfl

namespace Sample

/-- A part of a run in which no caller moves. -/
def onRuntime (as : List Action) : List (Waiting.Action Action ResultCall) := as.map .system

/-- `GetResult` is called for a queued task, and returns when the task has succeeded. -/
def awaited : List (Waiting.Action Action ResultCall) :=
  onRuntime (start ++ submit 1 (spec 1) none ++ [.loop .wait]) ++
    [.call ⟨task 1, true, noTimeout⟩] ++
    onRuntime (schedule (.ofByte 1) ++ execute ++ callback ++ [.loop .check, .loop .tryBegin,
      .loop .wait, .loop .check, .loop .tryBegin, .loop .wait]) ++ [.check 0]

def serving : Serving := ⟨runtime, []⟩

end Sample

set_option maxRecDepth 4000 in
theorem results_final_awaited :
    (Run.stateAfter resultMonitor.next Sample.awaited Sample.serving).waiters =
      [⟨⟨Sample.task 1, true, noTimeout⟩, .told (.OK, some [])⟩] ∧
    ∃ record, (Run.stateAfter resultMonitor.next Sample.awaited Sample.serving).system.record
      (Sample.task 1) = some record ∧ record.state.isTerminal = true ∧
      (.OK, some []) = TaskManager.resultOf record := by
  have hrun : Run.run resultMonitor.next Sample.awaited Sample.serving =
      some (Run.stateAfter resultMonitor.next Sample.awaited Sample.serving) :=
    Run.run_stateAfter (by decide)
  have hwaiters : (Run.stateAfter resultMonitor.next Sample.awaited Sample.serving).waiters =
      [⟨⟨Sample.task 1, true, noTimeout⟩, .told (.OK, some [])⟩] := rfl
  refine ⟨hwaiters, ?_⟩
  exact (results_final hrun).told ⟨⟨Sample.task 1, true, noTimeout⟩, .told (.OK, some [])⟩
    (by rw [hwaiters]; simp) _ rfl

/-! ## The callers return -/

/-- A step that a thread takes by itself, also one whose timeout has passed. -/
abbrev Own : Waiting.Action Action ResultCall → Prop :=
  Waiting.Action.isOwn (fun a => a.isOwn = true)

/-- The conditions on the steps of the runtime, as in `no_deadlock`. -/
abbrev Orderly : Serving → Waiting.Action Action ResultCall → Prop :=
  Waiting.OnSystem (fun s a => orderly s a = true)

/-- The caller has returned, and with a timeout error only if it had a timeout. -/
def Returned (w : Waiting.Waiter ResultCall ResultReply) : Prop :=
  (∃ reply, w.phase = .refused reply) ∨ (∃ reply, w.phase = .told reply) ∨
    w.phase = .late ∧ w.call.timeout ≠ noTimeout

theorem lawful_live : Waiting.Lawful resultMonitor (fun s a => orderly s a = true)
    (fun s => Live s ∧ Answerable s) := by
  refine lawful (fun _ hs => hs.2.inv) (fun _ hs => hs.2.dispatches) (fun s a u hs hok h => ?_)
  simp only [orderly, Bool.and_eq_true] at hok
  exact ⟨step_live h hok.1 hok.2 hs.1, step_answerable h hs.2⟩

theorem lawful_settling : Waiting.Lawful resultMonitor (fun _ a => publicApi a = true)
    (fun s => Settling s ∧ Answerable s) :=
  lawful (fun _ hs => hs.2.inv) (fun _ hs => hs.2.dispatches)
    (fun _ _ _ hs hok h => ⟨step_settling h hok hs.1, step_answerable h hs.2⟩)

theorem spends_serving : Run.Spends resultMonitor.next Own
    (Waiting.Sound resultMonitor fun s => Settling s ∧ Answerable s)
    (Waiting.potential resultMonitor potential) := by
  refine Waiting.spends lawful_settling (fun _ _ => publicApi_of_isOwn) ?_
  intro s a u hs hown h
  obtain ⟨hsettling, hlt⟩ := spends s a u hs.1 hown h
  exact ⟨⟨hsettling, step_answerable h hs.2⟩, hlt⟩

/-- After an orderly run the runtime and its callers have a bounded number of steps left to take
by themselves, and when there are none left every `GetResult` has returned. -/
theorem results_delivered {workerIds : List WorkerID} {capacity : ResourceSet} {callback : Bool}
    {as : List (Waiting.Action Action ResultCall)} {s : Serving}
    (h : Run.run resultMonitor.next as ⟨.initial workerIds capacity callback, []⟩ = some s)
    (horderly : Run.Along resultMonitor.next Orderly as
      ⟨.initial workerIds capacity callback, []⟩) :
    (∀ bs u, (∀ a ∈ bs, Own a) → Run.run resultMonitor.next bs s = some u →
      bs.length + Waiting.potential resultMonitor potential u ≤
        Waiting.potential resultMonitor potential s) ∧
    (Run.Quiescent resultMonitor.next Own s → ∀ w ∈ s.waiters, Returned w) := by
  have hnew := answerable_initial workerIds capacity callback
  have hs : Waiting.Sound resultMonitor (fun s => Live s ∧ Answerable s) s :=
    Run.invariant (fun _ _ _ hs hok hstep => Waiting.next_sound lawful_live hstep hok hs)
      horderly h ⟨⟨live_initial workerIds capacity callback, hnew⟩, by simp⟩
  refine ⟨fun bs u hown hr => ?_, fun hq w hw => ?_⟩
  · have hl := hs.system.1
    exact spends_serving.length_le hr
      ⟨⟨⟨hl.ready.inv, hl.asleep, hl.undrained⟩, hs.system.2⟩, hs.waiters⟩ hown
  · have hsound := hs.waiters w hw
    obtain ⟨hphase, -⟩ | hphase | hphase | hphase := Waiting.stuck_waiter hq hw
    · -- all tasks are terminal, so nobody can be asleep
      simp only [Waiting.Waiter.Sound, hphase] at hsound
      have hknown := (results_final h).asleep w hw hphase
      obtain ⟨record, hl, hlive⟩ := hknown
      have hstuck : Stuck s.system := Waiting.stuck_system hq
      rw [hstuck.terminal hs.system.1 hl] at hlive
      cases hlive
    · simp only [Waiting.Waiter.Sound, hphase] at hsound
      exact .inr (.inr ⟨hphase, by simpa [resultMonitor] using hsound⟩)
    · exact .inl hphase
    · exact .inr (.inl hphase)

set_option maxRecDepth 4000 in
theorem results_delivered_awaited :
    Run.Quiescent resultMonitor.next Own
      (Run.stateAfter resultMonitor.next Sample.awaited Sample.serving) ∧
    ∀ w ∈ (Run.stateAfter resultMonitor.next Sample.awaited Sample.serving).waiters,
      Returned w := by
  have hrun : Run.run resultMonitor.next Sample.awaited Sample.serving =
      some (Run.stateAfter resultMonitor.next Sample.awaited Sample.serving) :=
    Run.run_stateAfter (by decide)
  have hquiescent : Run.Quiescent resultMonitor.next Own
      (Run.stateAfter resultMonitor.next Sample.awaited Sample.serving) := by
    have hsystem : (Run.stateAfter resultMonitor.next Sample.awaited Sample.serving).system =
        Run.stateAfter step Sample.settled Sample.runtime := rfl
    have hwaiters : (Run.stateAfter resultMonitor.next Sample.awaited Sample.serving).waiters =
        [⟨⟨Sample.task 1, true, noTimeout⟩, .told (.OK, some [])⟩] := rfl
    intro a hown
    cases a with
    | system a =>
      have hstuck : step (Run.stateAfter step Sample.settled Sample.runtime) a = none :=
        stuck_settled a hown
      simp only [Waiting.Monitor.next, hsystem]
      exact Option.map_eq_none_iff.mpr hstuck
    | expire i | check i =>
      cases i <;> simp [Waiting.Monitor.next, Waiting.Monitor.moveAt, hwaiters,
        Waiting.Monitor.move]
    | call k | wake i => exact hown.elim
  have horderly : Run.Along resultMonitor.next Orderly Sample.awaited Sample.serving := by decide
  exact ⟨hquiescent, (results_delivered hrun horderly).2 hquiescent⟩

end LocalSystem

end AgentRuntime
