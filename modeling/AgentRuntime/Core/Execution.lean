import AgentRuntime.Library.Run
import AgentRuntime.Runtime.TaskManager

/-!
# Executions and their timeline

One attempt to execute a task: its lifecycle and the times at which it started
and finished. A history applies transitions with arbitrary states and times and
keeps, next to the execution, the calls that were accepted.
-/
namespace AgentRuntime

namespace Execution

def executionStateName : ExecutionState → String
  | .pending => "Pending"
  | .queued => "Queued"
  | .scheduled => "Scheduled"
  | .running => "Running"
  | .succeeded => "Succeeded"
  | .failed => "Failed"
  | .cancelled => "Cancelled"

def canTransition (current next : ExecutionState) : Bool :=
  -- cancellation is valid from any state that is not terminal
  if !current.isTerminal && next = .cancelled then true
  else
    match current with
    | .pending => next = .queued
    | .queued => next = .scheduled
    | .scheduled => next = .running
    | .running => next = .succeeded || next = .failed
    | .succeeded | .failed | .cancelled => false

/-- `dar::Lifecycle`. -/
structure Lifecycle where
  state : ExecutionState

def Lifecycle.transitionTo (lifecycle : Lifecycle) (next : ExecutionState) : Status × Lifecycle :=
  if !canTransition lifecycle.state next then
    (.FailedPrecondition ("Invalid execution state transition: " ++
      executionStateName lifecycle.state ++ " -> " ++ executionStateName next), lifecycle)
  else (.OK, ⟨next⟩)

end Execution

/-- Times are ticks of the system clock. -/
structure Execution where
  id : ExecutionID
  tenantId : TenantID
  taskId : TaskID
  agentId : AgentID
  attempt : UInt32
  resources : ResourceRequest
  lifecycle : Execution.Lifecycle
  createdAt : Int
  startedAt : Option Int
  finishedAt : Option Int

namespace Execution

def new (id : ExecutionID) (tenantId : TenantID) (taskId : TaskID) (agentId : AgentID)
    (attempt : UInt32) (resources : ResourceRequest) (createdAt : Int) : Execution :=
  ⟨id, tenantId, taskId, agentId, attempt, resources, ⟨.pending⟩, createdAt, none, none⟩

def validate (e : Execution) : Status :=
  if e.id.isNil then .InvalidArgument "Execution ID cannot be nil"
  else if e.attempt = 0 then
    .InvalidArgument "attempt number cannot be less or equal to 0"
  else .OK

def state (e : Execution) : ExecutionState := e.lifecycle.state

def transitionTo (e : Execution) (next : ExecutionState) (time : Int) : Status × Execution :=
  if time < e.createdAt then
    (.InvalidArgument "Transition time procedes execution creation time", e)
  else if e.startedAt.any fun started => time < started then
    (.InvalidArgument "Transition time precedes execution start time", e)
  else
    let moved := e.lifecycle.transitionTo next
    if !moved.1.ok then (moved.1, { e with lifecycle := moved.2 })
    else
      (.OK, { e with
        lifecycle := moved.2
        startedAt := if next = .running ∧ e.startedAt.isNone then some time else e.startedAt
        finishedAt := if next.isTerminal then some time else e.finishedAt })

/-! ## The documented lifecycle -/

/-- The transitions that the header lists. -/
inductive Edge : ExecutionState → ExecutionState → Prop
  | enqueue : Edge .pending .queued
  | schedule : Edge .queued .scheduled
  | start : Edge .scheduled .running
  | succeed : Edge .running .succeeded
  | fail : Edge .running .failed
  | cancel {current : ExecutionState} (live : current.isTerminal = false) :
      Edge current .cancelled

theorem canTransition_iff (current next : ExecutionState) :
    canTransition current next = true ↔ Edge current next := by
  constructor
  · intro h
    cases current <;> cases next <;> first | exact absurd h (by decide) | constructor
    all_goals rfl
  · intro h
    cases h with
    | enqueue | schedule | start | succeed | fail => rfl
    | cancel live => simp [canTransition, live]

/-- A path of the lifecycle from its start through the listed states. -/
inductive Path : List ExecutionState → ExecutionState → Prop
  | created : Path [.pending] .pending
  | step {states : List ExecutionState} {current next : ExecutionState}
      (path : Path states current) (edge : Edge current next) : Path (states ++ [next]) next

theorem Edge.live {current next : ExecutionState} (h : Edge current next) :
    current.isTerminal = false := by
  cases h with
  | enqueue | schedule | start | succeed | fail => rfl
  | cancel live => exact live

theorem Edge.not_running {current : ExecutionState} (h : Edge current .running) :
    current = .scheduled := by
  cases h
  rfl

/-- Before it runs an execution has only been queued and scheduled. -/
def waiting : ExecutionState → Bool
  | .pending | .queued | .scheduled => true
  | .running | .succeeded | .failed | .cancelled => false

theorem Edge.waiting {current next : ExecutionState} (h : Edge current next)
    (hnext : waiting next = true) : Execution.waiting current = true := by
  cases h with
  | enqueue | schedule => rfl
  | start | succeed | fail | cancel => cases hnext

/-! ## One call -/

/-- The execution after an accepted call. -/
def moved (e : Execution) (next : ExecutionState) (time : Int) : Execution :=
  { e with
    lifecycle := ⟨next⟩
    startedAt := if next = .running ∧ e.startedAt.isNone then some time else e.startedAt
    finishedAt := if next.isTerminal then some time else e.finishedAt }

@[simp] theorem state_moved (e : Execution) (next : ExecutionState) (time : Int) :
    (e.moved next time).state = next := rfl
@[simp] theorem createdAt_moved (e : Execution) (next : ExecutionState) (time : Int) :
    (e.moved next time).createdAt = e.createdAt := rfl

theorem startedAt_running {e : Execution} (h : e.startedAt = none) (time : Int) :
    (e.moved .running time).startedAt = some time := by
  simp [moved, h]

theorem startedAt_other (e : Execution) {next : ExecutionState} (h : next ≠ .running) (time : Int) :
    (e.moved next time).startedAt = e.startedAt := by
  simp [moved, h]

theorem finishedAt_moved (e : Execution) (next : ExecutionState) (time : Int) :
    (e.moved next time).finishedAt = if next.isTerminal then some time else e.finishedAt := rfl

/-- A call is refused, for its time or for its state, and changes nothing, or it follows an edge of
the lifecycle at a time that is not before the creation or the start. -/
theorem transitionTo_cases (e : Execution) (next : ExecutionState) (time : Int) :
    (∃ status : Status, status.ok = false ∧ e.transitionTo next time = (status, e)) ∨
    Edge e.state next ∧ e.createdAt ≤ time ∧ (∀ started, e.startedAt = some started →
      started ≤ time) ∧ e.transitionTo next time = (.OK, e.moved next time) := by
  simp only [transitionTo]
  by_cases hcreated : time < e.createdAt
  · left
    rw [if_pos hcreated]
    exact ⟨_, rfl, rfl⟩
  rw [if_neg hcreated]
  by_cases hstarted : (e.startedAt.any fun started => time < started) = true
  · left
    rw [if_pos hstarted]
    exact ⟨_, rfl, rfl⟩
  rw [if_neg hstarted]
  by_cases hlegal : canTransition e.lifecycle.state next = true
  · right
    refine ⟨(canTransition_iff _ _).mp hlegal, not_lt.mp hcreated, ?_, ?_⟩
    · intro started hs
      simpa [hs] using hstarted
    · simp [Lifecycle.transitionTo, hlegal, moved]
  · left
    simp only [Lifecycle.transitionTo, hlegal, Bool.not_false, if_true]
    exact ⟨_, rfl, rfl⟩

/-! ## Histories -/

structure History where
  execution : Execution
  /-- The calls that returned OK, in order. -/
  accepted : List (ExecutionState × Int)

namespace History

def step (h : History) (call : ExecutionState × Int) : Option History :=
  some
    { execution := (h.execution.transitionTo call.1 call.2).2
      accepted := if (h.execution.transitionTo call.1 call.2).1.ok then h.accepted ++ [call]
        else h.accepted }

theorem run_total (calls : List (ExecutionState × Int)) (h : History) :
    ∃ h', Run.run step calls h = some h' :=
  Run.run_total (fun _ _ => ⟨_, rfl⟩) calls h

/-- What the timestamps say of the accepted calls. -/
structure Timeline (h : History) : Prop where
  path : Path (.pending :: h.accepted.map Prod.fst) h.execution.state
  started : ∀ time, h.execution.startedAt = some time ↔ (.running, time) ∈ h.accepted
  finished : ∀ time, h.execution.finishedAt = some time ↔
    ∃ next : ExecutionState, next.isTerminal = true ∧ (next, time) ∈ h.accepted
  ended : h.execution.finishedAt.isSome = true ↔ h.execution.state.isTerminal = true
  waiting : Execution.waiting h.execution.state = true → h.execution.startedAt = none
  startedBound : ∀ time, h.execution.startedAt = some time → h.execution.createdAt ≤ time
  finishedBound : ∀ time, h.execution.finishedAt = some time → h.execution.createdAt ≤ time ∧
    ∀ started, h.execution.startedAt = some started → started ≤ time

/-- A call does nothing, or it is accepted and both times are still open where it sets them. -/
theorem step_cases {h h' : History} {call : ExecutionState × Int} (ht : Timeline h)
    (hs : step h call = some h') :
    h' = h ∨ Edge h.execution.state call.1 ∧ h.execution.createdAt ≤ call.2 ∧
      (∀ started, h.execution.startedAt = some started → started ≤ call.2) ∧
      h.execution.finishedAt = none ∧
      (call.1 = .running → h.execution.startedAt = none) ∧
      h' = ⟨h.execution.moved call.1 call.2, h.accepted ++ [call]⟩ := by
  obtain ⟨next, time⟩ := call
  cases hs
  obtain ⟨status, hno, he⟩ | ⟨hedge, hcreated, hstarted, he⟩ :=
    h.execution.transitionTo_cases next time
  · left
    simp [he, hno]
  · right
    refine ⟨hedge, hcreated, hstarted, ?_, ?_, by simp [he]⟩
    · have hlive := hedge.live
      cases hf : h.execution.finishedAt with
      | none => rfl
      | some finished =>
        have := ht.ended.mp (by rw [hf]; rfl)
        rw [hlive] at this
        cases this
    · rintro rfl
      exact ht.waiting (by rw [hedge.not_running]; rfl)

theorem Timeline.step {h h' : History} {call : ExecutionState × Int} (ht : Timeline h)
    (hs : step h call = some h') : Timeline h' := by
  obtain rfl | ⟨hedge, hcreated, hstarted, hopen, hfresh, rfl⟩ := step_cases ht hs
  · exact ht
  obtain ⟨next, time⟩ := call
  constructor
  case path =>
    have := ht.path.step hedge
    simpa using this
  case started =>
    intro t
    by_cases hrunning : next = .running
    · subst hrunning
      have hnone : (ExecutionState.running, t) ∉ h.accepted := by
        rw [← ht.started t, hfresh rfl]
        simp
      simp [startedAt_running (hfresh rfl), hnone, eq_comm]
    · simp only [startedAt_other _ hrunning, ht.started t, List.mem_append, List.mem_singleton,
        Prod.mk.injEq]
      constructor
      · exact .inl
      · rintro (hm | ⟨he, -⟩)
        · exact hm
        · exact absurd he.symm hrunning
  case finished =>
    intro t
    have hnone : ¬ ∃ next : ExecutionState, next.isTerminal = true ∧ (next, t) ∈ h.accepted := by
      rw [← ht.finished t, hopen]
      simp
    simp only [finishedAt_moved, hopen, List.mem_append, List.mem_singleton, Prod.mk.injEq]
    cases hterm : next.isTerminal with
    | true =>
      constructor
      · intro he
        cases he
        exact ⟨next, hterm, .inr ⟨rfl, rfl⟩⟩
      · rintro ⟨x, hx, hm | ⟨-, rfl⟩⟩
        · exact absurd ⟨x, hx, hm⟩ hnone
        · rfl
    | false =>
      constructor
      · intro he
        cases he
      · rintro ⟨x, hx, hm | ⟨rfl, -⟩⟩
        · exact absurd ⟨x, hx, hm⟩ hnone
        · rw [hterm] at hx
          cases hx
  case ended =>
    rw [finishedAt_moved, state_moved, hopen]
    cases next.isTerminal <;> simp
  case waiting =>
    intro hwaiting
    have hne : next ≠ .running := by
      rintro rfl
      cases hwaiting
    rw [startedAt_other _ hne]
    exact ht.waiting (hedge.waiting hwaiting)
  case startedBound =>
    intro t he
    by_cases hrunning : next = .running
    · subst hrunning
      rw [startedAt_running (hfresh rfl)] at he
      cases he
      exact hcreated
    · rw [startedAt_other _ hrunning] at he
      exact ht.startedBound t he
  case finishedBound =>
    intro t he
    rw [finishedAt_moved, hopen] at he
    split at he
    · rename_i hterm
      cases he
      have hne : next ≠ .running := by
        rintro rfl
        cases hterm
      refine ⟨hcreated, fun started hs => ?_⟩
      rw [startedAt_other _ hne] at hs
      exact hstarted started hs
    · cases he

theorem timeline_initial (id : ExecutionID) (tenantId : TenantID) (taskId : TaskID)
    (agentId : AgentID) (attempt : UInt32) (resources : ResourceRequest) (createdAt : Int) :
    Timeline ⟨.new id tenantId taskId agentId attempt resources createdAt, []⟩ where
  path := .created
  started _ := by simp [new]
  finished _ := by simp [new]
  ended := by simp [new, state, ExecutionState.isTerminal]
  waiting _ := rfl
  startedBound _ h := by cases h
  finishedBound _ h := by cases h

/-- A time that is set stays. -/
theorem step_keeps {h h' : History} {call : ExecutionState × Int} (ht : Timeline h)
    (hs : step h call = some h') :
    (∀ time, h.execution.startedAt = some time → h'.execution.startedAt = some time) ∧
    ∀ time, h.execution.finishedAt = some time → h'.execution.finishedAt = some time := by
  obtain rfl | ⟨-, -, -, hopen, hfresh, rfl⟩ := step_cases ht hs
  · exact ⟨fun _ he => he, fun _ he => he⟩
  obtain ⟨next, time⟩ := call
  constructor
  · intro t he
    by_cases hrunning : next = .running
    · rw [hfresh hrunning] at he
      cases he
    · rw [startedAt_other _ hrunning, he]
  · intro t he
    rw [hopen] at he
    cases he

/-- The timeline of every execution after any sequence of calls, with arbitrary states and times:
its history is a path of the lifecycle, both times are those of the accepted calls that set them,
in order and never overwritten, and a refused call changes nothing. -/
theorem timeline_documented (id : ExecutionID) (tenantId : TenantID) (taskId : TaskID)
    (agentId : AgentID) (attempt : UInt32) (resources : ResourceRequest) (createdAt : Int)
    (calls : List (ExecutionState × Int)) :
    ∃ h, Run.run step calls
        ⟨.new id tenantId taskId agentId attempt resources createdAt, []⟩ = some h ∧
      h.execution.createdAt = createdAt ∧ Timeline h ∧
      (∀ more h', Run.run step more h = some h' →
        (∀ time, h.execution.startedAt = some time → h'.execution.startedAt = some time) ∧
        ∀ time, h.execution.finishedAt = some time → h'.execution.finishedAt = some time) ∧
      ∀ next time, (h.execution.transitionTo next time).1.ok = false →
        (h.execution.transitionTo next time).2 = h.execution := by
  obtain ⟨h, hr⟩ := run_total calls
    ⟨.new id tenantId taskId agentId attempt resources createdAt, []⟩
  have ht : Timeline h := Run.invariant_run (fun _ _ _ ht hs => ht.step hs) hr
    (timeline_initial id tenantId taskId agentId attempt resources createdAt)
  refine ⟨h, hr, ?created, ht, ?kept, ?refused⟩
  case created =>
    refine Run.invariant_run (I := fun u : History => u.execution.createdAt = createdAt) ?_ hr rfl
    rintro u ⟨next, time⟩ v hu hs
    cases hs
    obtain ⟨status, -, he⟩ | ⟨-, -, -, he⟩ := u.execution.transitionTo_cases next time <;>
      simp [he, hu]
  case kept =>
    intro more h' hmore
    constructor
    · intro time he
      exact (Run.invariant_run
        (I := fun u : History => Timeline u ∧ u.execution.startedAt = some time)
        (fun _ _ _ hu hs => ⟨hu.1.step hs, (step_keeps hu.1 hs).1 time hu.2⟩) hmore ⟨ht, he⟩).2
    · intro time he
      exact (Run.invariant_run
        (I := fun u : History => Timeline u ∧ u.execution.finishedAt = some time)
        (fun _ _ _ hu hs => ⟨hu.1.step hs, (step_keeps hu.1 hs).2 time hu.2⟩) hmore ⟨ht, he⟩).2
  case refused =>
    intro next time hno
    obtain ⟨status, -, he⟩ | ⟨-, -, -, he⟩ := h.execution.transitionTo_cases next time
    · rw [he]
    · rw [he] at hno
      cases hno

end History

end Execution

end AgentRuntime
