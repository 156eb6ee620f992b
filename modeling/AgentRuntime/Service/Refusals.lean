import AgentRuntime.Service.Replies
import AgentRuntime.Service.Requests

/-!
# What an error in a reply says

A reply that is not `OK` is the refusal of the execution by `Submit`, or the
execution belongs to another task. A refusal is final.
-/
namespace AgentRuntime

namespace WorkerService

open LocalSystem (course)

/-- `Submit` has refused the execution. -/
def Refused (s : State) (e : ExecutionID) : Prop :=
  ∃ n t status, Returned s n e t status ∧ status.ok = false

variable {s u : State} {a : Action} {e : ExecutionID}

theorem step_refused (h : Effect s a u) (hi : Ledger s) (hr : Refused s e) : Refused u e := by
  obtain ⟨n, t, status, hreturned, hno⟩ := hr
  exact ⟨n, t, status, step_returned h hi hreturned, hno⟩

/-- A request whose call of `Submit` has begun is the one that claimed its execution. -/
theorem Ledger.claimer (hi : Ledger s) {n : Nat} {l : Launch} (hl : s.launches.lookup n = some l)
    (hc : course s.runtime n ≠ .outside) : l.isClaimer = true := by
  have hlinked := hi.linked n
  rw [hl] at hlinked
  obtain ⟨e, spec, handler, phase⟩ := l
  cases phase with
  | claiming | claimed | rejected | replayed => exact absurd hlinked hc
  | submitting | answered => rfl

theorem Ledger.not_accepted (hi : Ledger s) (hr : Refused s e) {m : Nat} {t : TaskID}
    (hid : identity? s m = some (e, t)) : (course s.runtime m).isAccepted = false := by
  obtain ⟨n, t', status, ⟨hid', hstatus⟩, hno⟩ := hr
  obtain ⟨l, hl, he⟩ := Option.map_eq_some_iff.mp hid
  obtain ⟨l', hl', he'⟩ := Option.map_eq_some_iff.mp hid'
  have hreturned := LocalSystem.course_of_returned hstatus
  cases hc : (course s.runtime m).isAccepted with
  | false => rfl
  | true =>
    have hclaimer : l.isClaimer = true := hi.claimer hl (by
      intro hout
      rw [hout] at hc
      cases hc)
    have hclaimer' : l'.isClaimer = true := hi.claimer hl' (by simp [hreturned])
    have hsame : l.executionId = l'.executionId :=
      (congrArg Prod.fst he).trans (congrArg Prod.fst he').symm
    obtain rfl := hi.claims.unique m n l l' hl hl' hclaimer hclaimer' hsame
    rw [hreturned] at hc
    exact hc.symm.trans hno

theorem refused_of_reply (hi : Ledger s) (ha : Answers s) {n : Nat} {l : Launch} {status : Status}
    (hl : s.launches.lookup n = some l) (hreply : l.reply? = some status)
    (hno : status.ok = false) : Refused s l.executionId ∨
      ∃ m l', s.launches.lookup m = some l' ∧ l'.executionId = l.executionId ∧
        l'.spec.id ≠ l.spec.id := by
  have hanswered := ha n l hl
  have hlinked := hi.linked n
  rw [hl] at hlinked
  have hid := identity_of_lookup hl
  obtain ⟨e, spec, handler, phase⟩ := l
  cases phase with
  | claiming | claimed | submitting => cases hreply
  | rejected status' =>
    obtain ⟨existing, he, hother⟩ := hanswered
    obtain ⟨m, l', hm, hclaimer, hsame⟩ := hi.claims.entry e existing he
    have hclaimed := hi.claims.claimed m l' hm hclaimer
    rw [hsame, he] at hclaimed
    obtain rfl := Option.some.inj hclaimed
    exact .inr ⟨m, l', hm, hsame, hother⟩
  | replayed status' =>
    cases hreply
    obtain ⟨existing, he, rfl | hstored⟩ := hanswered
    · cases hno
    · -- the error was stored by the request that claimed the execution
      obtain ⟨m, l', hm, hclaimer, rfl⟩ := hi.claims.entry e existing he
      have hclaimed := hi.claims.claimed m l' hm hclaimer
      rw [he] at hclaimed
      obtain rfl := Option.some.inj hclaimed
      have hlinked' := hi.linked m
      rw [hm] at hlinked'
      refine .inl ⟨m, l'.spec.id, status, ⟨identity_of_lookup hm, ?_⟩, hno⟩
      obtain ⟨e', spec', handler', phase'⟩ := l'
      cases phase' with
      | answered status'' =>
        obtain rfl : status'' = status := hstored
        exact LocalSystem.returned_of_course hlinked'
      | claiming | claimed | submitting | rejected | replayed =>
        obtain rfl : Status.OK = status := hstored
        cases hno
  | answered status' =>
    cases hreply
    exact .inl ⟨n, spec.id, status, ⟨hid, LocalSystem.returned_of_course hlinked⟩, hno⟩

end WorkerService

end AgentRuntime
