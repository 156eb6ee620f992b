import AgentRuntime.Local.Executions
import AgentRuntime.Local.Submission

/-!
# The sections of a call

A call of `Submit` or `Cancel` is a row of sections, and the other threads take
theirs in between. What a call has changed is what its own sections have
changed, so these are picked out of a run, each with the states before and
after it.
-/
namespace AgentRuntime

namespace LocalSystem

/-- A call of a client, by its key. -/
inductive Call where
  | submit (k : Nat)
  | cancel (k : Nat)
  deriving DecidableEq

/-- The `Cancel` call that holds `Scheduler::mu_`. -/
def Holder.cancel? : Option Holder → Option Nat
  | some (.cancelRemove k _) | some (.cancelTask k _ _) | some (.cancelReport k _ _) => some k
  | _ => none

/-- The call whose section a step is. -/
def caller (s : State) : Action → Option Call
  | .call a =>
    match a with
    | .submitBegin k _ _ => some (.submit k)
    | .submitRegister | .enqueueBegin | .enqueueMark | .enqueuePush _ =>
      s.submitting?.map (fun inside => .submit inside.1)
    | .cancelBegin k _ => some (.cancel k)
    | .cancelRemove | .cancelTask | .cancelReturn _ => (Holder.cancel? s.holder).map .cancel
    | .drainBegin _ | .drainWait _ => none
  | .loop _ | .thread _ _ | .lifecycle _ | .wake _ => none

structure Section where
  before : State
  action : Action
  after : State

def sectionOf (call : Call) (s : State) (a : Action) : List Section :=
  if caller s a = some call then (step s a).toList.map (fun u => ⟨s, a, u⟩) else []

/-- The sections of a call in a run, in order. -/
def sections (call : Call) (as : List Action) (s : State) : List Section :=
  Run.observed step (sectionOf call) as s

variable {s u : State} {call : Call}

theorem sectionOf_own {a : Action} (h : step s a = some u) (hcaller : caller s a = some call) :
    sectionOf call s a = [⟨s, a, u⟩] := by
  simp [sectionOf, hcaller, h]

theorem sectionOf_other {a : Action} (hcaller : caller s a ≠ some call) :
    sectionOf call s a = [] := if_neg hcaller

namespace Section

/-- Nothing is written but the owners of `lifecycle_mu_` and `Scheduler::mu_` and the statuses of
the calls. -/
def IsQuiet (x : Section) : Prop :=
  x.after = { x.before with
    lifecycle := x.after.lifecycle, holder := x.after.holder,
    submits := x.after.submits, cancels := x.after.cancels }

/-- A call returns, and the scheduler thread is notified. -/
def Wakes (x : Section) : Prop :=
  x.after = { x.before with
    lifecycle := x.after.lifecycle, holder := x.after.holder,
    submits := x.after.submits, cancels := x.after.cancels,
    wakeRequested := true, sleeping := x.after.sleeping }

end Section

/-- A section found in a run is a step of it. -/
theorem mem_sections {as : List Action} {x : Section} (h : x ∈ sections call as s) :
    ∃ pre post, as = pre ++ x.action :: post ∧ Run.run step pre s = some x.before ∧
      step x.before x.action = some x.after := by
  obtain ⟨pre, a, post, t, v, rfl, ht, hv, hx⟩ := Run.mem_observed h
  simp only [sectionOf] at hx
  split at hx
  · rw [hv] at hx
    obtain rfl := List.mem_singleton.mp hx
    exact ⟨pre, post, rfl, ht, hv⟩
  · cases hx

/-! ## The steps of other threads -/

/-- A step that is no section of the call does not move it. -/
structure Aside (k : Nat) (s u : State) : Prop where
  cancels : u.cancels.lookup k = s.cancels.lookup k
  holder : Holder.cancel? s.holder = some k ∨ Holder.cancel? u.holder = some k →
    u.holder = s.holder

variable {k : Nat}

theorem aside_of_holder (hcancels : u.cancels = s.cancels) (hholder : u.holder = s.holder) :
    Aside k s u := ⟨by rw [hcancels], fun _ => hholder⟩

/-- `mu_` goes from one owner to another, and the call is neither. -/
theorem aside_of_not (hcancels : u.cancels.lookup k = s.cancels.lookup k)
    (hs : Holder.cancel? s.holder ≠ some k) (hu : Holder.cancel? u.holder ≠ some k) :
    Aside k s u := ⟨hcancels, fun h => (h.elim hs hu).elim⟩

theorem cancel?_none {holder : Option Holder} (h : Holder.isCall holder = false) :
    Holder.cancel? holder = none := by
  cases holder with
  | none => rfl
  | some holder => cases holder <;> first | rfl | cases h

theorem CallsKept.aside (h : CallsKept s u) : Aside k s u := by
  obtain hholder | ⟨hs, hu⟩ := h.holder
  · exact aside_of_holder h.cancels hholder
  · exact aside_of_not (by rw [h.cancels]) (by simp [cancel?_none hs]) (by simp [cancel?_none hu])

end LocalSystem

end AgentRuntime
