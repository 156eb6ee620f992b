import AgentRuntime.Library.Quiescence
import Mathlib.Algebra.Order.BigOperators.Group.List
import Mathlib.Algebra.Order.Group.Nat
import Mathlib.Algebra.Order.Ring.Nat
import Mathlib.Data.List.Induction

/-!
# Waiting for a condition

Callers sleep until a condition on a system holds or their deadline has passed.
A step that makes the condition hold wakes all that sleep on it. A sleeper can
also wake up without cause, and then looks again.
-/
namespace Waiting

variable {σ α κ β : Type}

structure Monitor (σ α κ β : Type) where
  step : σ → α → Option σ
  /-- What a call that does not wait at all is told. -/
  refusal : σ → κ → Option β
  /-- What a call is told as soon as its condition holds. -/
  answer : σ → κ → Option β
  notifies : σ → α → κ → Bool
  /-- The call has a deadline. -/
  expires : κ → Bool

inductive Phase (β : Type) where
  | asleep
  | awake
  /-- Woken by its deadline. -/
  | expired
  | refused (answer : β)
  | told (answer : β)
  /-- Returned because its deadline had passed. -/
  | late

structure Waiter (κ β : Type) where
  call : κ
  phase : Phase β

/-- The waiters are in the order of their calls. -/
structure State (σ κ β : Type) where
  system : σ
  waiters : List (Waiter κ β)

inductive Action (α κ : Type) where
  | system (a : α)
  | call (k : κ)
  | wake (i : Nat)
  | expire (i : Nat)
  | check (i : Nat)

namespace Monitor

variable (M : Monitor σ α κ β)

/-- The condition is evaluated, and the call returns if it holds. -/
def look (s : σ) (k : κ) (otherwise : Phase β) : Phase β :=
  match M.answer s k with
  | some b => .told b
  | none => otherwise

def enter (s : σ) (k : κ) : Phase β :=
  match M.refusal s k with
  | some b => .refused b
  | none => M.look s k .asleep

def notify (s : σ) (a : α) (w : Waiter κ β) : Waiter κ β :=
  match w.phase with
  | .asleep => if M.notifies s a w.call then { w with phase := .awake } else w
  | _ => w

/-- What a waiter does by itself, or has happen to it. -/
def move (s : σ) (a : Action α κ) (w : Waiter κ β) : Option (Phase β) :=
  match a, w.phase with
  | .wake _, .asleep => some .awake
  | .expire _, .asleep => if M.expires w.call then some .expired else none
  | .check _, .awake => some (M.look s w.call .asleep)
  | .check _, .expired => some (M.look s w.call .late)
  | _, _ => none

def moveAt (s : State σ κ β) (a : Action α κ) (i : Nat) : Option (State σ κ β) :=
  s.waiters[i]?.bind fun w => (M.move s.system a w).map fun phase =>
    { s with waiters := s.waiters.set i { w with phase := phase } }

def next (s : State σ κ β) : Action α κ → Option (State σ κ β)
  | .system a => (M.step s.system a).map fun u => ⟨u, s.waiters.map (M.notify s.system a)⟩
  | .call k => some { s with waiters := s.waiters ++ [⟨k, M.enter s.system k⟩] }
  | .wake i => M.moveAt s (.wake i) i
  | .expire i => M.moveAt s (.expire i) i
  | .check i => M.moveAt s (.check i) i

end Monitor

variable {M : Monitor σ α κ β} {s u : State σ κ β}

/-- One waiter goes on, and the others stay where they are. -/
theorem moveAt_cases {a : Action α κ} {i : Nat} (h : M.moveAt s a i = some u) :
    ∃ before w after phase, s.waiters = before ++ w :: after ∧ M.move s.system a w = some phase ∧
      u = ⟨s.system, before ++ { w with phase := phase } :: after⟩ := by
  simp only [Monitor.moveAt, Option.bind_eq_some_iff, Option.map_eq_some_iff] at h
  obtain ⟨w, hw, phase, hphase, rfl⟩ := h
  obtain ⟨hlt, rfl⟩ := List.getElem?_eq_some_iff.mp hw
  refine ⟨s.waiters.take i, s.waiters[i], s.waiters.drop (i + 1), phase, ?_, hphase, ?_⟩
  · rw [List.cons_getElem_drop_succ, List.take_append_drop]
  · rw [List.set_eq_take_append_cons_drop, if_pos hlt]

/-- The steps: one of the system, a new call, or one of a waiter. -/
theorem next_cases {a : Action α κ} (h : M.next s a = some u) :
    (∃ b t, a = .system b ∧ M.step s.system b = some t ∧
      u = ⟨t, s.waiters.map (M.notify s.system b)⟩) ∨
    (∃ k, a = .call k ∧ u = ⟨s.system, s.waiters ++ [⟨k, M.enter s.system k⟩]⟩) ∨
    ∃ before w after phase, s.waiters = before ++ w :: after ∧ M.move s.system a w = some phase ∧
      u = ⟨s.system, before ++ { w with phase := phase } :: after⟩ := by
  cases a with
  | system b =>
    simp only [Monitor.next, Option.map_eq_some_iff] at h
    obtain ⟨t, ht, rfl⟩ := h
    exact .inl ⟨b, t, rfl, ht, rfl⟩
  | call k =>
    cases h
    exact .inr (.inl ⟨k, rfl, rfl⟩)
  | wake i | expire i | check i => exact .inr (.inr (moveAt_cases h))

/-! ## What the calls are told -/

/-- From the states in `I`, and by the steps in `C`: a condition that holds goes on to hold, with the
same answer, and a step notifies exactly those for whom it makes the condition hold. -/
structure Lawful (M : Monitor σ α κ β) (C : σ → α → Prop) (I : σ → Prop) : Prop where
  keeps : ∀ s a t, I s → C s a → M.step s a = some t → I t
  stays : ∀ s a t k b, I s → C s a → M.step s a = some t → M.answer s k = some b →
    M.answer t k = some b
  notifies : ∀ s a t k, I s → C s a → M.step s a = some t → M.answer s k = none →
    (M.notifies s a k = true ↔ (M.answer t k).isSome = true)

/-- Nobody sleeps who could go on, and whoever was told something was told the truth. -/
def Waiter.Sound (M : Monitor σ α κ β) (s : σ) (w : Waiter κ β) : Prop :=
  match w.phase with
  | .asleep => M.answer s w.call = none
  | .expired | .late => M.expires w.call = true
  | .told b => M.answer s w.call = some b
  | .awake | .refused _ => True

variable {C : σ → α → Prop} {I : σ → Prop}

/-- The steps of the system that meet `C`, and all steps of the waiters. -/
def OnSystem (C : σ → α → Prop) (s : State σ κ β) : Action α κ → Prop
  | .system a => C s.system a
  | _ => True

instance (C : σ → α → Prop) [∀ s a, Decidable (C s a)] (s : State σ κ β) :
    ∀ a : Action α κ, Decidable (OnSystem C s a)
  | .system a => inferInstanceAs (Decidable (C s.system a))
  | .call _ | .wake _ | .expire _ | .check _ => .isTrue trivial

structure Sound (M : Monitor σ α κ β) (I : σ → Prop) (s : State σ κ β) : Prop where
  system : I s.system
  waiters : ∀ w ∈ s.waiters, w.Sound M s.system

theorem notify_sound (hM : Lawful M C I) {s t : σ} {a : α} (hs : I s) (ha : C s a)
    (hstep : M.step s a = some t) {w : Waiter κ β} (hw : w.Sound M s) :
    (M.notify s a w).Sound M t := by
  simp only [Waiter.Sound] at hw
  cases hphase : w.phase with
  | asleep =>
    rw [hphase] at hw
    have hiff := hM.notifies s a t w.call hs ha hstep hw
    by_cases hn : M.notifies s a w.call = true
    · simp [Monitor.notify, hphase, hn, Waiter.Sound]
    · rw [Bool.not_eq_true] at hn
      rw [hn] at hiff
      simpa [Monitor.notify, hphase, hn, Waiter.Sound] using hiff
  | awake | refused b => simp [Monitor.notify, hphase, Waiter.Sound]
  | told b =>
    rw [hphase] at hw
    simpa [Monitor.notify, hphase, Waiter.Sound] using hM.stays s a t w.call b hs ha hstep hw
  | expired | late =>
    rw [hphase] at hw
    simpa [Monitor.notify, hphase, Waiter.Sound] using hw

theorem look_sound {s : σ} {k : κ} {otherwise : Phase β}
    (h : M.answer s k = none → Waiter.Sound M s ⟨k, otherwise⟩) :
    Waiter.Sound M s ⟨k, M.look s k otherwise⟩ := by
  simp only [Monitor.look]
  cases hanswer : M.answer s k with
  | some b => exact hanswer
  | none => exact h hanswer

theorem enter_sound (s : σ) (k : κ) : Waiter.Sound M s ⟨k, M.enter s k⟩ := by
  simp only [Monitor.enter]
  split
  · trivial
  · exact look_sound id

theorem move_sound {s : σ} {a : Action α κ} {w : Waiter κ β} {phase : Phase β}
    (h : M.move s a w = some phase) (hw : w.Sound M s) :
    Waiter.Sound M s { w with phase := phase } := by
  simp only [Monitor.move] at h
  split at h
  · cases h
    trivial
  · split at h
    · cases h
      assumption
    · cases h
  · cases h
    exact look_sound id
  · rename_i hphase
    cases h
    simp only [Waiter.Sound, hphase] at hw
    exact look_sound (fun _ => hw)
  · cases h

theorem next_sound (hM : Lawful M C I) {a : Action α κ} (h : M.next s a = some u)
    (ha : OnSystem C s a) (hs : Sound M I s) : Sound M I u := by
  obtain ⟨b, t, rfl, hstep, rfl⟩ | ⟨k, rfl, rfl⟩ | ⟨before, w, after, phase, heq, hmove, rfl⟩ :=
    next_cases h
  · refine ⟨hM.keeps _ _ _ hs.system ha hstep, fun w hw => ?_⟩
    obtain ⟨w, hmem, rfl⟩ := List.mem_map.mp hw
    exact notify_sound hM hs.system ha hstep (hs.waiters w hmem)
  · refine ⟨hs.system, fun w hw => ?_⟩
    obtain hmem | hnew := List.mem_append.mp hw
    · exact hs.waiters w hmem
    · obtain rfl := List.mem_singleton.mp hnew
      exact enter_sound s.system k
  · refine ⟨hs.system, fun w' hw' => ?_⟩
    have hold := hs.waiters
    rw [heq] at hold
    simp only [List.mem_append, List.mem_cons] at hw' hold
    obtain hmem | rfl | hmem := hw'
    · exact hold w' (.inl hmem)
    · exact move_sound hmove (hold w (.inr (.inl rfl)))
    · exact hold w' (.inr (.inr hmem))

/-! ## Who does not wait -/

theorem look_ne_refused {s : σ} {k : κ} {otherwise : Phase β} {b : β}
    (h : otherwise ≠ .refused b) : M.look s k otherwise ≠ .refused b := by
  simp only [Monitor.look]
  split
  · simp
  · exact h

theorem refusal_of_enter {s : σ} {k : κ} {b : β} (h : M.enter s k = .refused b) :
    M.refusal s k = some b := by
  simp only [Monitor.enter] at h
  split at h
  · cases h
    assumption
  · exact absurd h (look_ne_refused (by simp))

/-- A call that waits is not refused any more. -/
theorem move_ne_refused {s : σ} {a : Action α κ} {w : Waiter κ β} {phase : Phase β} {b : β}
    (h : M.move s a w = some phase) : phase ≠ .refused b ∧ w.phase ≠ .refused b := by
  simp only [Monitor.move] at h
  split at h
  · rename_i hphase
    cases h
    simp [hphase]
  · rename_i hphase
    split at h
    · cases h
      simp [hphase]
    · cases h
  · rename_i hphase
    cases h
    exact ⟨look_ne_refused (by simp), by simp [hphase]⟩
  · rename_i hphase
    cases h
    exact ⟨look_ne_refused (by simp), by simp [hphase]⟩
  · cases h

theorem notify_call (s : σ) (a : α) (w : Waiter κ β) : (M.notify s a w).call = w.call := by
  simp only [Monitor.notify]
  split
  · split <;> rfl
  · rfl

theorem notify_refused {s : σ} {a : α} {w : Waiter κ β} {b : β} :
    (M.notify s a w).phase = .refused b ↔ w.phase = .refused b := by
  simp only [Monitor.notify]
  split
  · rename_i hphase
    split <;> simp [hphase]
  · exact Iff.rfl

/-- A call is only refused where it begins. -/
theorem refused_run {as : List (Action α κ)} {t : σ} (h : Run.run M.next as ⟨t, []⟩ = some s) :
    ∀ w ∈ s.waiters, ∀ b, w.phase = .refused b → ∃ before after v,
      as = before ++ .call w.call :: after ∧ Run.run M.next before ⟨t, []⟩ = some v ∧
        M.refusal v.system w.call = some b := by
  induction as using List.reverseRecOn generalizing s with
  | nil =>
    cases h
    simp
  | append_singleton as a ih =>
    obtain ⟨v, hv, hlast⟩ := Run.run_split h
    obtain ⟨v', hstep, hnil⟩ := Run.run_cons_some hlast
    cases hnil
    -- what has happened before the last step
    have hold : ∀ w ∈ v.waiters, ∀ b, w.phase = .refused b → ∃ before after t',
        as ++ [a] = before ++ .call w.call :: after ∧
          Run.run M.next before ⟨t, []⟩ = some t' ∧ M.refusal t'.system w.call = some b := by
      intro w hw b hb
      obtain ⟨before, after, t', rfl, ht', hrefusal⟩ := ih hv w hw b hb
      exact ⟨before, after ++ [a], t', by simp, ht', hrefusal⟩
    intro w hw b hb
    obtain ⟨c, t', rfl, -, rfl⟩ | ⟨k, rfl, rfl⟩ | ⟨before, w', after, phase, heq, hmove, rfl⟩ :=
      next_cases hstep
    · obtain ⟨w', hmem, rfl⟩ := List.mem_map.mp hw
      rw [notify_call]
      exact hold w' hmem b (notify_refused.mp hb)
    · obtain hmem | hnew := List.mem_append.mp hw
      · exact hold w hmem b hb
      · obtain rfl := List.mem_singleton.mp hnew
        exact ⟨as, [], v, rfl, hv, refusal_of_enter hb⟩
    · rw [heq] at hold
      simp only [List.mem_append, List.mem_cons] at hw hold
      obtain hmem | rfl | hmem := hw
      · exact hold w (.inl hmem) b hb
      · exact absurd hb (move_ne_refused hmove).1
      · exact hold w (.inr (.inr hmem)) b hb

/-- What is true of a call that is not refused, and stays true, is true of every call that was
not refused. -/
theorem next_admitted {P : σ → κ → Prop}
    (hadmits : ∀ s k, M.refusal s k = none → P s k)
    (hstays : ∀ s a t k, I s → C s a → M.step s a = some t → P s k → P t k)
    {a : Action α κ} (h : M.next s a = some u) (ha : OnSystem C s a) (hs : Sound M I s)
    (hP : ∀ w ∈ s.waiters, (∀ b, w.phase ≠ .refused b) → P s.system w.call) :
    ∀ w ∈ u.waiters, (∀ b, w.phase ≠ .refused b) → P u.system w.call := by
  intro w hw hnot
  obtain ⟨c, t, rfl, hstep, rfl⟩ | ⟨k, rfl, rfl⟩ | ⟨before, w', after, phase, heq, hmove, rfl⟩ :=
    next_cases h
  · obtain ⟨w', hmem, rfl⟩ := List.mem_map.mp hw
    rw [notify_call]
    exact hstays _ _ _ _ hs.system ha hstep
      (hP w' hmem fun b hb => hnot b (notify_refused.mpr hb))
  · obtain hmem | hnew := List.mem_append.mp hw
    · exact hP w hmem hnot
    · obtain rfl := List.mem_singleton.mp hnew
      refine hadmits s.system k ?_
      cases hrefusal : M.refusal s.system k with
      | none => rfl
      | some b => exact absurd (by simp [Monitor.enter, hrefusal]) (hnot b)
  · rw [heq] at hP
    simp only [List.mem_append, List.mem_cons] at hw hP
    obtain hmem | rfl | hmem := hw
    · exact hP w (.inl hmem) hnot
    · exact hP w' (.inr (.inl rfl)) fun b => (move_ne_refused hmove).2
    · exact hP w (.inr (.inr hmem)) hnot

/-! ## How long they wait -/

/-- The steps that a waiter still takes when it is not woken without cause. -/
def Waiter.cost (M : Monitor σ α κ β) (s : σ) (w : Waiter κ β) : Nat :=
  match w.phase with
  | .asleep => 2
  | .awake => if (M.answer s w.call).isSome then 1 else 3
  | .expired => 1
  | .refused _ | .told _ | .late => 0

def waitCost (M : Monitor σ α κ β) (s : State σ κ β) : Nat :=
  (s.waiters.map (Waiter.cost M s.system)).sum

theorem notify_cost (hM : Lawful M C I) {s t : σ} {a : α} (hs : I s) (ha : C s a)
    (hstep : M.step s a = some t) {w : Waiter κ β} (hw : w.Sound M s) :
    (M.notify s a w).cost M t ≤ w.cost M s := by
  cases hphase : w.phase with
  | asleep =>
    simp only [Waiter.Sound, hphase] at hw
    have hiff := hM.notifies s a t w.call hs ha hstep hw
    by_cases hn : M.notifies s a w.call = true
    · simp [Monitor.notify, hphase, hn, Waiter.cost, hiff.mp hn]
    · simp [Monitor.notify, hphase, hn, Waiter.cost]
  | awake =>
    simp only [Monitor.notify, hphase, Waiter.cost]
    cases hanswer : M.answer s w.call with
    | none => split <;> simp
    | some b => simp [hM.stays s a t w.call b hs ha hstep hanswer]
  | expired | refused b | told b | late => simp [Monitor.notify, hphase, Waiter.cost]

theorem look_cost {s : σ} {k : κ} {otherwise : Phase β} (n : Nat)
    (h : M.answer s k = none → Waiter.cost M s ⟨k, otherwise⟩ < n) (hn : 0 < n) :
    Waiter.cost M s ⟨k, M.look s k otherwise⟩ < n := by
  simp only [Monitor.look]
  cases hanswer : M.answer s k with
  | some b => exact hn
  | none => exact h hanswer

/-- The moves that a waiter makes by itself. -/
def Action.isOwn (own : α → Prop) : Action α κ → Prop
  | .system a => own a
  | .expire _ | .check _ => True
  | .call _ | .wake _ => False

variable {own : α → Prop}

theorem move_cost {s : σ} {a : Action α κ} {w : Waiter κ β} {phase : Phase β}
    (h : M.move s a w = some phase) (hown : a.isOwn own) :
    Waiter.cost M s { w with phase := phase } < w.cost M s := by
  simp only [Monitor.move] at h
  split at h
  · exact hown.elim
  · rename_i hphase
    split at h
    · cases h
      simp [Waiter.cost, hphase]
    · cases h
  · rename_i hphase
    cases h
    simp only [Waiter.cost, hphase]
    refine look_cost _ (fun hnone => ?_) ?_
    · simp [Waiter.cost, hnone]
    · split <;> simp
  · rename_i hphase
    cases h
    simp only [Waiter.cost, hphase]
    exact look_cost _ (fun _ => by simp [Waiter.cost]) (by simp)
  · cases h

/-- The moves that the system and its waiters can still make by themselves. -/
def potential (M : Monitor σ α κ β) (μ : σ → Nat) (s : State σ κ β) : Nat :=
  μ s.system + waitCost M s

/-- If the steps of the system use up a measure, so do those of the system with its waiters. -/
theorem spends {μ : σ → Nat} (hM : Lawful M C I) (hC : ∀ s a, own a → C s a)
    (hμ : Run.Spends M.step own I μ) :
    Run.Spends M.next (Action.isOwn own) (Sound M I) (potential M μ) := by
  intro s a u hs hown h
  obtain ⟨b, t, rfl, hstep, rfl⟩ | ⟨k, rfl, rfl⟩ | ⟨before, w, after, phase, heq, hmove, rfl⟩ :=
    next_cases h
  · have ha := hC s.system b hown
    refine ⟨next_sound hM h ha hs, ?_⟩
    have hlt := (hμ s.system b t hs.system hown hstep).2
    have hle : waitCost M ⟨t, s.waiters.map (M.notify s.system b)⟩ ≤ waitCost M s := by
      simp only [waitCost, List.map_map]
      exact List.sum_le_sum fun w hw => notify_cost hM hs.system ha hstep (hs.waiters w hw)
    simp only [potential]
    omega
  · exact hown.elim
  · have hon : OnSystem C s a := by
      cases a with
      | system b => simp [Monitor.move] at hmove
      | _ => trivial
    refine ⟨next_sound hM h hon hs, ?_⟩
    have hlt := move_cost hmove hown
    simp only [potential, waitCost, heq, List.map_append, List.map_cons, List.sum_append, List.sum_cons]
    omega

/-- A waiter that cannot go on has returned, or sleeps without a deadline. -/
theorem stuck_waiter (hq : Run.Quiescent M.next (Action.isOwn own) s) {w : Waiter κ β}
    (hw : w ∈ s.waiters) :
    (w.phase = .asleep ∧ M.expires w.call = false) ∨ w.phase = .late ∨
      (∃ b, w.phase = .refused b) ∨ ∃ b, w.phase = .told b := by
  obtain ⟨i, hlt, rfl⟩ := List.mem_iff_getElem.mp hw
  have hcheck := hq (.check i) trivial
  have hexpire := hq (.expire i) trivial
  simp only [Monitor.next, Monitor.moveAt, List.getElem?_eq_getElem hlt, Option.bind_some,
    Option.map_eq_none_iff, Monitor.move] at hcheck hexpire
  cases hphase : s.waiters[i].phase with
  | asleep =>
    simp only [hphase] at hexpire
    exact .inl ⟨rfl, by simpa using hexpire⟩
  | awake | expired => simp [hphase] at hcheck
  | refused b => exact .inr (.inr (.inl ⟨b, rfl⟩))
  | told b => exact .inr (.inr (.inr ⟨b, rfl⟩))
  | late => exact .inr (.inl rfl)

/-- Nor can the system. -/
theorem stuck_system (hq : Run.Quiescent M.next (Action.isOwn own) s) :
    Run.Quiescent M.step own s.system := by
  intro a ha
  have hnext := hq (.system a) ha
  simpa only [Monitor.next, Option.map_eq_none_iff] using hnext

end Waiting
