import AgentRuntime.Library.Run

/-!
# Scoped locks around the sections of a system

In a system of sections a step is one section of one thread and takes effect at
once. Here the sections are spelled out: a thread locks mutexes one by one on
its way to the effect and unlocks them on its way out, and the other threads go
on meanwhile. A mutex has one owner at most, and a thread that needs one which
is taken has no step. Nothing here depends on what the sections do.
-/
namespace Locks

inductive Op (μ : Type) where
  | lock (m : μ)
  | unlock (m : μ)

variable {σ α ι μ : Type}

/-- A scope that is left as soon as it has been entered. -/
def guarded (m : μ) : List (Op μ) := [.lock m, .unlock m]

/-- The scopes are left from the inside out. -/
def leave (scopes : List μ) : List (Op μ) := scopes.reverse.map .unlock

/-! ## Runs of lock operations -/

/-- A thread that holds some mutexes, innermost first, can perform the operations without locking
what it already holds, and what it holds afterwards. -/
inductive Plays : List μ → List (Op μ) → List μ → Prop where
  | done (held) : Plays held [] held
  | lock {held m ops held'} (hfree : m ∉ held) (h : Plays (m :: held) ops held') :
      Plays held (.lock m :: ops) held'
  | unlock {held m ops held'} (h : Plays held ops held') :
      Plays (m :: held) (.unlock m :: ops) held'

section

variable {held held' : List μ} {ops : List (Op μ)}

theorem Plays.append {more : List (Op μ)} {held'' : List μ} (h : Plays held ops held')
    (h' : Plays held' more held'') : Plays held (ops ++ more) held'' := by
  induction h with
  | done => exact h'
  | lock hfree _ ih => exact .lock hfree (ih h')
  | unlock _ ih => exact .unlock (ih h')

theorem plays_guarded {m : μ} (hfree : m ∉ held) : Plays held (guarded m) held :=
  .lock hfree (.unlock (.done held))

theorem plays_guarded_all {ms : List μ} (hfree : ∀ m ∈ ms, m ∉ held) :
    Plays held (ms.flatMap guarded) held := by
  induction ms with
  | nil => exact .done held
  | cons m ms ih =>
    rw [List.flatMap_cons]
    exact (plays_guarded (hfree m List.mem_cons_self)).append
      (ih (fun m' hm' => hfree m' (List.mem_cons_of_mem m hm')))

/-- Scopes are entered from the outside in. -/
theorem plays_enter {ms : List μ} (hnodup : (ms.reverse ++ held).Nodup) :
    Plays held (ms.map .lock) (ms.reverse ++ held) := by
  induction ms generalizing held with
  | nil => exact .done held
  | cons m ms ih =>
    rw [List.reverse_cons, List.append_assoc, List.singleton_append] at hnodup ⊢
    have hm := (List.nodup_cons.mp (List.nodup_append.mp hnodup).2.1).1
    exact .lock hm (ih hnodup)

theorem plays_leave (ms held : List μ) : Plays (ms.reverse ++ held) (leave ms) held := by
  rw [leave]
  induction ms.reverse with
  | nil => exact .done held
  | cons m ms ih => exact .unlock ih

end

/-! ## The system -/

/-- A system of sections, with the mutexes that each section uses. -/
structure System (σ α ι μ : Type) where
  step : σ → α → Option σ
  /-- The thread whose section it is; a section of nobody uses no mutexes. -/
  thread : σ → α → Option ι
  /-- The scopes that are left before the effect. -/
  passes : α → List μ
  /-- The scopes that are entered before the effect, and left on returning or in a later section. -/
  keeps : α → List μ
  /-- The scopes around the effect, from the outside in. -/
  scopes : σ → α → List μ
  /-- What is done once these have been left, in the states before and after the effect. -/
  returning : σ → ι → α → σ → List (Op μ)

/-- Where a thread is. -/
inductive Phase (α μ : Type) where
  /-- On its way out of a section; between two sections when nothing is left to do. -/
  | leaving (ops : List (Op μ))
  /-- On its way to the effect, after which the scopes around it are left. -/
  | entering (ops : List (Op μ)) (a : α) (scopes : List μ)

structure State (σ α ι μ : Type) where
  inner : σ
  owner : μ → Option ι
  phase : ι → Phase α μ

inductive Action (α ι : Type) where
  | enter (x : ι) (a : α)
  | advance (x : ι)
  /-- A step that is no thread's. -/
  | environment (a : α)

namespace State

def initial (s : σ) : State σ α ι μ where
  inner := s
  owner _ := none
  phase _ := .leaving []

variable [DecidableEq ι] [DecidableEq μ]

def setOwner (s : State σ α ι μ) (m : μ) (x : Option ι) : State σ α ι μ :=
  { s with owner := fun m' => if m' = m then x else s.owner m' }
def setPhase (s : State σ α ι μ) (x : ι) (phase : Phase α μ) : State σ α ι μ :=
  { s with phase := fun y => if y = x then phase else s.phase y }

/-- Locking waits for the owner, and only the owner unlocks. -/
def operate (s : State σ α ι μ) (x : ι) : Op μ → Option (State σ α ι μ)
  | .lock m => if s.owner m = none then some (s.setOwner m (some x)) else none
  | .unlock m => if s.owner m = some x then some (s.setOwner m none) else none

end State

variable (sys : System σ α ι μ)

/-- The way to the effect of a section. -/
def opening (s : σ) (a : α) : List (Op μ) :=
  (sys.passes a).flatMap guarded ++ ((sys.keeps a).map .lock ++ (sys.scopes s a).map .lock)

section

variable [DecidableEq ι] [DecidableEq μ]

/-- A thread enters a section that it can take, and then goes on step by step. -/
def step (s : State σ α ι μ) : Action α ι → Option (State σ α ι μ)
  | .enter x a =>
    match s.phase x with
    | .leaving [] =>
      if sys.thread s.inner a = some x ∧ (sys.step s.inner a).isSome = true then
        some (s.setPhase x (.entering (opening sys s.inner a) a (sys.scopes s.inner a)))
      else none
    | _ => none
  | .advance x =>
    match s.phase x with
    | .leaving [] => none
    | .leaving (op :: ops) => (s.operate x op).map (·.setPhase x (.leaving ops))
    | .entering (op :: ops) a scopes => (s.operate x op).map (·.setPhase x (.entering ops a scopes))
    | .entering [] a scopes =>
      if sys.thread s.inner a = some x then
        (sys.step s.inner a).map fun u =>
          { s with inner := u }.setPhase x
            (.leaving (leave scopes ++ sys.returning s.inner x a u))
      else none
  | .environment a =>
    if sys.thread s.inner a = none then (sys.step s.inner a).map fun u => { s with inner := u }
    else none

/-- The section that takes effect in a step. -/
def effect? (s : State σ α ι μ) : Action α ι → Option α
  | .advance x =>
    match s.phase x with
    | .entering [] a _ => some a
    | _ => none
  | .environment a => some a
  | .enter _ _ => none

end

/-! ## The discipline -/

variable (I : σ → Prop) (retained : σ → ι → List μ)

/-- What it takes that a thread between two sections holds just the mutexes in `retained`. -/
structure Discipline : Prop where
  invariant : ∀ s a u, I s → sys.step s a = some u → I u
  nodup : ∀ s a x, I s → sys.thread s a = some x → (sys.step s a).isSome = true →
    ((sys.scopes s a).reverse ++ ((sys.keeps a).reverse ++ retained s x)).Nodup
  passes : ∀ s a x, I s → sys.thread s a = some x → (sys.step s a).isSome = true →
    ∀ m ∈ sys.passes a, m ∉ retained s x
  returning : ∀ s a x u, I s → sys.thread s a = some x → sys.step s a = some u →
    Plays ((sys.keeps a).reverse ++ retained s x) (sys.returning s x a u) (retained u x)
  others : ∀ s a x u, I s → sys.step s a = some u → sys.thread s a ≠ some x →
    retained u x = retained s x

/-- What a thread holds fits to where it is. -/
inductive Fits (s : State σ α ι μ) (x : ι) (held : List μ) : Prop where
  | leaving {ops} (hphase : s.phase x = .leaving ops) (h : Plays held ops (retained s.inner x))
  | entering {ops a scopes} (hphase : s.phase x = .entering ops a scopes)
      (h : Plays held ops (scopes.reverse ++ ((sys.keeps a).reverse ++ retained s.inner x)))
      (hscopes : ∃ v, scopes = sys.scopes v a)

/-- The mutexes of a thread, innermost first. -/
structure Holds (s : State σ α ι μ) (x : ι) (held : List μ) : Prop where
  fits : Fits sys retained s x held
  nodup : held.Nodup
  owner : ∀ m, s.owner m = some x ↔ m ∈ held

structure Inv (s : State σ α ι μ) : Prop where
  inner : I s.inner
  held : ∀ x, ∃ held, Holds sys retained s x held

variable {sys I retained}

theorem inv_initial {s : σ} (hs : I s) (hnone : ∀ x, retained s x = []) :
    Inv sys I retained (.initial s) where
  inner := hs
  held x := ⟨[], .leaving rfl (by rw [State.initial, hnone]; exact .done []), List.nodup_nil,
    by simp [State.initial]⟩

variable {s t : State σ α ι μ} {x : ι}

/-- A step of another thread, if it leaves what this one retains. -/
theorem Holds.other {held : List μ} (h : Holds sys retained s x held)
    (hphase : t.phase x = s.phase x) (howner : ∀ m, t.owner m = some x ↔ s.owner m = some x)
    (hretained : retained t.inner x = retained s.inner x) : Holds sys retained t x held where
  fits := by
    cases h.fits with
    | leaving hp hops => exact .leaving (hphase.trans hp) (hretained ▸ hops)
    | entering hp hops hscopes => exact .entering (hphase.trans hp) (hretained ▸ hops) hscopes
  nodup := h.nodup
  owner m := (howner m).trans (h.owner m)

/-- Between two sections a thread holds just what it retains. -/
theorem Inv.owner_iff (hi : Inv sys I retained s) (hphase : s.phase x = .leaving []) (m : μ) :
    s.owner m = some x ↔ m ∈ retained s.inner x := by
  obtain ⟨held, hheld⟩ := hi.held x
  rw [hheld.owner m]
  cases hheld.fits with
  | leaving hp hops =>
    rw [hphase] at hp
    cases hp
    cases hops
    rfl
  | entering hp =>
    rw [hphase] at hp
    cases hp

theorem plays_opening {a : α} {v : σ} (hD : Discipline sys I retained) (hv : I v)
    (hx : sys.thread v a = some x) (ha : (sys.step v a).isSome = true) :
    Plays (retained v x) (opening sys v a)
      ((sys.scopes v a).reverse ++ ((sys.keeps a).reverse ++ retained v x)) := by
  have hnodup := hD.nodup v a x hv hx ha
  have hkeeps := (List.nodup_append.mp hnodup).2.1
  exact (plays_guarded_all (hD.passes v a x hv hx ha)).append
    ((plays_enter hkeeps).append (plays_enter hnodup))

/-! ## Every step keeps it -/

variable [DecidableEq ι]

/-- The effect of a section. -/
theorem run_inv {a : α} {scopes : List μ} {u : σ} (hD : Discipline sys I retained)
    (hphase : s.phase x = .entering [] a scopes) (hx : sys.thread s.inner a = some x)
    (hu : sys.step s.inner a = some u) (hi : Inv sys I retained s) :
    Inv sys I retained ({ s with inner := u }.setPhase x
      (.leaving (leave scopes ++ sys.returning s.inner x a u))) where
  inner := hD.invariant s.inner a u hi.inner hu
  held y := by
    obtain ⟨held, hheld⟩ := hi.held y
    refine ⟨held, ?_, hheld.nodup, hheld.owner⟩
    by_cases hy : y = x
    · subst hy
      cases hheld.fits with
      | leaving hp =>
        rw [hphase] at hp
        cases hp
      | entering hp hops =>
        rw [hphase] at hp
        cases hp
        cases hops
        exact .leaving (if_pos rfl)
          ((plays_leave scopes _).append (hD.returning s.inner a y u hi.inner hx hu))
    · refine Holds.fits (hheld.other (if_neg hy) (fun _ => Iff.rfl) ?_)
      exact hD.others s.inner a y u hi.inner hu (fun he => hy (Option.some.inj (he.symm.trans hx)))

variable [DecidableEq μ]

/-- One lock operation, on either side of the effect. -/
theorem Holds.operate {held held' : List μ} {op : Op μ} {ops : List (Op μ)}
    (h : Holds sys retained s x held) (ho : s.operate x op = some t)
    (hplays : Plays held (op :: ops) held') : ∃ next, Plays next ops held' ∧ next.Nodup ∧
      (∀ m, t.owner m = some x ↔ m ∈ next) ∧
      (∀ y, y ≠ x → ∀ m, t.owner m = some y ↔ s.owner m = some y) ∧
      t.inner = s.inner ∧ t.phase = s.phase := by
  cases hplays with
  | @lock _ m _ _ hfree hplays =>
    simp only [State.operate] at ho
    split at ho
    · rename_i hnone
      cases ho
      refine ⟨m :: held, hplays, List.nodup_cons.mpr ⟨hfree, h.nodup⟩, fun m' => ?_,
        fun y hy m' => ?_, rfl, rfl⟩
      · simp only [State.setOwner, List.mem_cons]
        split
        · rename_i he
          simp [he]
        · rename_i hne
          simp [hne, h.owner m']
      · simp only [State.setOwner]
        split
        · rename_i he
          simp [he, hnone, Ne.symm hy]
        · rfl
    · cases ho
  | @unlock held m _ _ hplays =>
    simp only [State.operate] at ho
    split at ho
    · rename_i hown
      cases ho
      obtain ⟨hfresh, hnodup⟩ := List.nodup_cons.mp h.nodup
      refine ⟨held, hplays, hnodup, fun m' => ?_, fun y hy m' => ?_, rfl, rfl⟩
      · simp only [State.setOwner]
        split
        · rename_i he
          simp [he, hfresh]
        · rename_i hne
          rw [h.owner m', List.mem_cons]
          simp [hne]
      · simp only [State.setOwner]
        split
        · rename_i he
          simp [he, hown, Ne.symm hy]
        · rfl
    · cases ho

/-- A lock operation of one thread leaves the others alone. -/
theorem Inv.operate (hi : Inv sys I retained s) {op : Op μ} {phase : Phase α μ} {next : List μ}
    (ho : s.operate x op = some t)
    (hfits : Fits sys retained (t.setPhase x phase) x next) (hnodup : next.Nodup)
    (howner : ∀ m, t.owner m = some x ↔ m ∈ next)
    (hothers : ∀ y, y ≠ x → ∀ m, t.owner m = some y ↔ s.owner m = some y)
    (hinner : t.inner = s.inner) (hphase : t.phase = s.phase) :
    Inv sys I retained (t.setPhase x phase) where
  inner := by
    show I t.inner
    rw [hinner]
    exact hi.inner
  held y := by
    by_cases hy : y = x
    · subst hy
      exact ⟨next, hfits, hnodup, howner⟩
    · obtain ⟨held, hheld⟩ := hi.held y
      refine ⟨held, hheld.other ?_ (hothers y hy) ?_⟩
      · simp [State.setPhase, hy, hphase]
      · show retained t.inner y = retained s.inner y
        rw [hinner]

theorem enter_inv {a : α} (hD : Discipline sys I retained) (h : step sys s (.enter x a) = some t)
    (hi : Inv sys I retained s) : Inv sys I retained t := by
  simp only [step] at h
  split at h
  · rename_i hphase
    split at h
    · rename_i hown
      cases h
      refine ⟨hi.inner, fun y => ?_⟩
      obtain ⟨held, hheld⟩ := hi.held y
      refine ⟨held, ?_, hheld.nodup, hheld.owner⟩
      by_cases hy : y = x
      · subst hy
        cases hheld.fits with
        | leaving hp hops =>
          rw [hphase] at hp
          cases hp
          cases hops
          exact .entering (if_pos rfl) (plays_opening hD hi.inner hown.1 hown.2) ⟨s.inner, rfl⟩
        | entering hp =>
          rw [hphase] at hp
          cases hp
      · exact Holds.fits (hheld.other (if_neg hy) (fun _ => Iff.rfl) rfl)
    · cases h
  · cases h

theorem advance_inv (hD : Discipline sys I retained) (h : step sys s (.advance x) = some t)
    (hi : Inv sys I retained s) : Inv sys I retained t := by
  obtain ⟨held, hheld⟩ := hi.held x
  simp only [step] at h
  split at h
  · cases h
  · rename_i op ops hphase
    obtain ⟨u, hu, rfl⟩ := Option.map_eq_some_iff.mp h
    cases hheld.fits with
    | leaving hp hops =>
      rw [hphase] at hp
      cases hp
      obtain ⟨next, hnext, hnodup, howner, hothers, hinner, hkept⟩ := hheld.operate hu hops
      exact hi.operate hu (.leaving (if_pos rfl) (by simpa [State.setPhase, hinner] using hnext))
        hnodup howner hothers hinner hkept
    | entering hp =>
      rw [hphase] at hp
      cases hp
  · rename_i op ops a scopes hphase
    obtain ⟨u, hu, rfl⟩ := Option.map_eq_some_iff.mp h
    cases hheld.fits with
    | entering hp hops hscopes =>
      rw [hphase] at hp
      cases hp
      obtain ⟨next, hnext, hnodup, howner, hothers, hinner, hkept⟩ := hheld.operate hu hops
      exact hi.operate hu
        (.entering (if_pos rfl) (by simpa [State.setPhase, hinner] using hnext) hscopes)
        hnodup howner hothers hinner hkept
    | leaving hp =>
      rw [hphase] at hp
      cases hp
  · rename_i a scopes hphase
    split at h
    · rename_i hx
      obtain ⟨u, hu, rfl⟩ := Option.map_eq_some_iff.mp h
      exact run_inv hD hphase hx hu hi
    · cases h

theorem step_inv {l : Action α ι} (hD : Discipline sys I retained) (h : step sys s l = some t)
    (hi : Inv sys I retained s) : Inv sys I retained t := by
  cases l with
  | enter x a => exact enter_inv hD h hi
  | advance x => exact advance_inv hD h hi
  | environment a =>
    simp only [step] at h
    split at h
    · rename_i hnone
      obtain ⟨u, hu, rfl⟩ := Option.map_eq_some_iff.mp h
      refine ⟨hD.invariant _ a u hi.inner hu, fun x => ?_⟩
      obtain ⟨held, hheld⟩ := hi.held x
      refine ⟨held, hheld.other rfl (fun _ => Iff.rfl) ?_⟩
      exact hD.others s.inner a x u hi.inner hu (by simp [hnone])
    · cases h

theorem inv_run (hD : Discipline sys I retained) {v : σ} (hv : I v) (hnone : ∀ x, retained v x = [])
    {as : List (Action α ι)} (h : Run.run (step sys) as (.initial v) = some s) :
    Inv sys I retained s :=
  Run.invariant_run (fun _ _ _ hi hstep => step_inv hD hstep hi) h (inv_initial hv hnone)

/-- What each effect keeps under a condition, a run keeps in which every effect meets it. -/
theorem inner_invariant {J : σ → Prop} {C : σ → α → Prop}
    (hstep : ∀ v a u, J v → C v a → sys.step v a = some u → J u) {as : List (Action α ι)}
    (hC : Run.Along (step sys) (fun s l => ∀ a, effect? s l = some a → C s.inner a) as s)
    (h : Run.run (step sys) as s = some t) (hs : J s.inner) : J t.inner := by
  refine Run.invariant (I := fun s => J s.inner) (fun s l t hJ hl hst => ?_) hC h hs
  cases l with
  | enter x a =>
    simp only [step] at hst
    split at hst
    · split at hst
      · cases hst
        exact hJ
      · cases hst
    · cases hst
  | advance x =>
    have operated : ∀ {op : Op μ} {phase : Phase α μ},
        (s.operate x op).map (·.setPhase x phase) = some t → J t.inner := by
      intro op phase ho
      obtain ⟨u, hu, rfl⟩ := Option.map_eq_some_iff.mp ho
      cases op <;>
      · simp only [State.operate] at hu
        split at hu
        · cases hu
          exact hJ
        · cases hu
    simp only [step] at hst
    split at hst
    · cases hst
    · exact operated hst
    · exact operated hst
    · rename_i a scopes hphase
      split at hst
      · obtain ⟨u, hu, rfl⟩ := Option.map_eq_some_iff.mp hst
        exact hstep s.inner a u hJ (hl a (by simp [effect?, hphase])) hu
      · cases hst
  | environment a =>
    simp only [step] at hst
    split at hst
    · obtain ⟨u, hu, rfl⟩ := Option.map_eq_some_iff.mp hst
      exact hstep s.inner a u hJ (hl a rfl) hu
    · cases hst

end Locks
