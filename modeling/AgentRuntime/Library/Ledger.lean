import Mathlib.Algebra.BigOperators.Group.List.Basic
import Mathlib.Algebra.Order.BigOperators.Group.List
import Mathlib.Algebra.Order.Ring.Int

/-!
# Ledgers of claims on a pool

A pool has a total and an available quantity for each name, and the claims
outstanding on it are listed. The ledger is balanced when what is missing from
the pool is what the claims hold, name by name.
-/
namespace Ledger

variable {κ ι : Type}

/-- What the listed claims hold of a name. -/
def held (amount : ι → κ → Int) (claims : List ι) (name : κ) : Int :=
  (claims.map (fun c => amount c name)).sum

def Balanced (total available : κ → Int) (amount : ι → κ → Int) (claims : List ι) : Prop :=
  ∀ name, total name - available name = held amount claims name

variable {total available : κ → Int} {amount : ι → κ → Int} {claims : List ι}

@[simp] theorem held_nil (amount : ι → κ → Int) (name : κ) : held amount [] name = 0 := rfl
@[simp] theorem held_cons (amount : ι → κ → Int) (c : ι) (claims : List ι) (name : κ) :
    held amount (c :: claims) name = amount c name + held amount claims name := by
  simp [held]

theorem held_append (amount : ι → κ → Int) (claims claims' : List ι) (name : κ) :
    held amount (claims ++ claims') name = held amount claims name + held amount claims' name := by
  simp [held]

theorem held_perm {claims' : List ι} (h : claims.Perm claims') (name : κ) :
    held amount claims name = held amount claims' name :=
  (h.map _).sum_eq

theorem held_eq_zero (h : ∀ c ∈ claims, amount c = fun _ => 0) (name : κ) :
    held amount claims name = 0 := by
  apply List.sum_eq_zero
  intro x hx
  obtain ⟨c, hc, rfl⟩ := List.mem_map.mp hx
  rw [h c hc]

theorem held_nonneg (h : ∀ c name, 0 ≤ amount c name) (claims : List ι) (name : κ) :
    0 ≤ held amount claims name := by
  apply List.sum_nonneg
  intro x hx
  obtain ⟨c, _, rfl⟩ := List.mem_map.mp hx
  exact h c name

/-- A claim holds no more than all claims together. -/
theorem le_held (h : ∀ c name, 0 ≤ amount c name) {c : ι} (hc : c ∈ claims) (name : κ) :
    amount c name ≤ held amount claims name := by
  obtain ⟨before, after, rfl⟩ := List.append_of_mem hc
  have hb := held_nonneg h before name
  have ha := held_nonneg h after name
  simp only [held, List.map_append, List.sum_append, List.map_cons, List.sum_cons] at *
  omega

/-- A full pool balances any claims that hold nothing of it. -/
theorem Balanced.full (h : ∀ name, available name = total name)
    (hzero : ∀ c ∈ claims, amount c = fun _ => 0) : Balanced total available amount claims := by
  intro name
  rw [held_eq_zero hzero, h name]
  omega

theorem Balanced.congr {amount' : ι → κ → Int} (h : Balanced total available amount claims)
    (ha : ∀ c ∈ claims, amount c = amount' c) : Balanced total available amount' claims := by
  intro name
  rw [h name]
  simp only [held]
  congr 1
  exact List.map_congr_left fun c hc => congrFun (ha c hc) name

theorem Balanced.perm {claims' : List ι} (h : Balanced total available amount claims)
    (hp : claims.Perm claims') : Balanced total available amount claims' := by
  intro name
  rw [h name, held_perm hp name]

/-- Granting a claim takes its amount out of the pool. -/
theorem Balanced.grant {available' : κ → Int} {c : ι}
    (h : Balanced total available amount claims)
    (ha : ∀ name, available' name = available name - amount c name) :
    Balanced total available' amount (c :: claims) := by
  intro name
  rw [held_cons, ha name, ← h name]
  omega

/-- Giving a claim back returns its amount to the pool. -/
theorem Balanced.giveBack {available' : κ → Int} {c : ι}
    (h : Balanced total available amount (c :: claims))
    (ha : ∀ name, available' name = available name + amount c name) :
    Balanced total available' amount claims := by
  intro name
  have := h name
  rw [held_cons] at this
  rw [ha name]
  omega

/-- An outstanding claim always fits into what is in use. -/
theorem Balanced.covers (h : Balanced total available amount claims)
    (hpos : ∀ c name, 0 ≤ amount c name) {c : ι} (hc : c ∈ claims) (name : κ) :
    amount c name ≤ total name - available name := by
  rw [h name]
  exact le_held hpos hc name

/-- With nothing outstanding the pool is full. -/
theorem Balanced.available_eq (h : Balanced total available amount [])
    (name : κ) : available name = total name := by
  have := h name
  rw [held_nil] at this
  omega

/-- Claims of which a pool holds nothing do not count. -/
theorem Balanced.skip {c : ι} (hz : ∀ name, amount c name = 0) :
    Balanced total available amount (c :: claims) ↔ Balanced total available amount claims := by
  constructor
  · intro h name
    rw [h name, held_cons, hz name, zero_add]
  · intro h name
    rw [h name, held_cons, hz name, zero_add]

/-! ## What has been taken and what has been given back -/

/-- The claims that were taken and not yet given back. -/
def outstanding [BEq ι] (taken returned : List ι) : List ι := taken.diff returned

/-- The outstanding claims are known, and the pool misses exactly what they hold. -/
structure Tracked (total available : κ → Int) (amount : ι → κ → Int)
    (taken returned claims : List ι) : Prop where
  accounted : taken.Perm (returned ++ claims)
  balanced : Balanced total available amount claims

variable {taken returned : List ι}

theorem append_diff [BEq ι] [LawfulBEq ι] (returned claims : List ι) :
    (returned ++ claims).diff returned = claims := by
  induction returned with
  | nil => rfl
  | cons c returned ih => simp [List.diff_cons, ih]

namespace Tracked

theorem outstanding_perm [DecidableEq ι]
    (h : Tracked total available amount taken returned claims) :
    (outstanding taken returned).Perm claims := by
  have hdiff := h.accounted.diff_right returned
  rw [append_diff] at hdiff
  exact hdiff

theorem held_outstanding [DecidableEq ι]
    (h : Tracked total available amount taken returned claims) (name : κ) :
    total name - available name = held amount (outstanding taken returned) name := by
  rw [h.balanced name]
  exact held_perm h.outstanding_perm.symm name

/-- The same claims in other hands. -/
theorem perm {claims' : List ι} (h : Tracked total available amount taken returned claims)
    (hp : claims.Perm claims') : Tracked total available amount taken returned claims' :=
  ⟨h.accounted.trans (hp.append_left returned), h.balanced.perm hp⟩

theorem take {available' : κ → Int} {c : ι}
    (h : Tracked total available amount taken returned claims)
    (ha : ∀ name, available' name = available name - amount c name) :
    Tracked total available' amount (taken ++ [c]) returned (c :: claims) where
  accounted := by
    refine (List.perm_append_singleton c taken).trans ?_
    exact (h.accounted.cons c).trans List.perm_middle.symm
  balanced := h.balanced.grant ha

theorem giveBack {available' : κ → Int} {c : ι}
    (h : Tracked total available amount taken returned (c :: claims))
    (ha : ∀ name, available' name = available name + amount c name) :
    Tracked total available' amount taken (returned ++ [c]) claims where
  accounted := by
    refine h.accounted.trans ?_
    simp
  balanced := h.balanced.giveBack ha

end Tracked

end Ledger
