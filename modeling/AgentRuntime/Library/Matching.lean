import Mathlib.Logic.Function.Basic

/-!
# Matchings between owners and what they hold

One table says for each thing who has it and in which condition, another says
for each owner what it has. The tables match when they say the same. Then
nothing has two owners and no owner has two things, whatever the updates.
-/

variable {τ ω σ : Type}

def Matched (owner : τ → Option (ω × σ)) (holding : ω → Option (τ × σ)) : Prop :=
  ∀ t w x, owner t = some (w, x) ↔ holding w = some (t, x)

namespace Matched

variable {owner : τ → Option (ω × σ)} {holding : ω → Option (τ × σ)}

/-- A thing has one owner. -/
theorem owner_unique (h : Matched owner holding) {t : τ} {w w' : ω} {x x' : σ}
    (hw : holding w = some (t, x)) (hw' : holding w' = some (t, x')) : w = w' ∧ x = x' := by
  have ho := (h t w x).mpr hw
  rw [(h t w' x').mpr hw'] at ho
  cases ho
  exact ⟨rfl, rfl⟩

/-- What nobody owns nobody holds. -/
theorem not_held (h : Matched owner holding) {t : τ} (ht : owner t = none) (w : ω) (x : σ) :
    holding w ≠ some (t, x) := by
  intro hw
  rw [(h t w x).mpr hw] at ht
  cases ht

theorem congr {owner' : τ → Option (ω × σ)} {holding' : ω → Option (τ × σ)}
    (h : Matched owner holding) (ho : owner' = owner) (hh : holding' = holding) :
    Matched owner' holding' := by
  rw [ho, hh]
  exact h

variable [DecidableEq τ] [DecidableEq ω]

/-- A free thing goes to an owner whose hands are empty. -/
theorem assign (h : Matched owner holding) {t : τ} {w : ω} (x : σ) (ht : owner t = none)
    (hw : holding w = none) :
    Matched (Function.update owner t (some (w, x))) (Function.update holding w (some (t, x))) := by
  intro t' w' x'
  simp only [Function.update_apply]
  by_cases htt : t' = t <;> by_cases hww : w' = w
  · subst htt hww
    simp
  · subst htt
    have := h.not_held ht w' x'
    simp [hww, this, Ne.symm hww]
  · subst hww
    have : owner t' ≠ some (w', x') := fun ho => by
      rw [(h t' w' x').mp ho] at hw
      cases hw
    simp [htt, this, Ne.symm htt]
  · simp only [htt, hww, if_false]
    exact h t' w' x'

/-- What is held changes its condition, or is given up. -/
theorem replace (h : Matched owner holding) {t : τ} {w : ω} {x : σ} (y : Option σ)
    (hw : holding w = some (t, x)) :
    Matched (Function.update owner t (y.map fun y => (w, y)))
      (Function.update holding w (y.map fun y => (t, y))) := by
  intro t' w' x'
  simp only [Function.update_apply]
  by_cases htt : t' = t <;> by_cases hww : w' = w
  · subst htt hww
    simp
  · subst htt
    have : holding w' ≠ some (t', x') := fun hh => hww (h.owner_unique hh hw).1
    simp [hww, this, Ne.symm hww]
  · subst hww
    have : owner t' ≠ some (w', x') := fun ho => by
      rw [(h t' w' x').mp ho] at hw
      cases hw
      exact htt rfl
    simp [htt, this, Ne.symm htt]
  · simp only [htt, hww, if_false]
    exact h t' w' x'

theorem change (h : Matched owner holding) {t : τ} {w : ω} {x : σ} (y : σ)
    (hw : holding w = some (t, x)) :
    Matched (Function.update owner t (some (w, y))) (Function.update holding w (some (t, y))) :=
  h.replace (some y) hw

theorem clear (h : Matched owner holding) {t : τ} {w : ω} {x : σ}
    (hw : holding w = some (t, x)) :
    Matched (Function.update owner t none) (Function.update holding w none) :=
  h.replace none hw

end Matched
