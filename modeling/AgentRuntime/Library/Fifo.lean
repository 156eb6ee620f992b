import Mathlib.Data.List.Nodup

/-!
# The history of a queue

Entries are put in at the back, taken out at the front, or dropped from the
middle. Nothing here depends on what the entries are or how they are stored.
-/
namespace Fifo

variable {α : Type} [DecidableEq α] {put dropped out pending : List α} {a b : α}

/-- What was put in and not dropped has come out, in order, or is still there. -/
structure InOrder (put dropped out pending : List α) : Prop where
  order : put.filter (fun a => a ∉ dropped) = out ++ pending
  nodup : put.Nodup
  known : ∀ a ∈ dropped, a ∈ put

theorem InOrder.nil : InOrder ([] : List α) [] [] [] := ⟨rfl, .nil, fun _ h => by cases h⟩

/-- An entry is put in for the first time. -/
theorem InOrder.push (h : InOrder put dropped out pending) (ha : a ∉ put) :
    InOrder (put ++ [a]) dropped out (pending ++ [a]) where
  order := by
    have hkept : a ∉ dropped := fun hd => ha (h.known a hd)
    rw [List.filter_append, h.order]
    simp [hkept]
  nodup := by
    refine List.nodup_append.mpr ⟨h.nodup, List.nodup_singleton a, ?_⟩
    rintro b hb c hc rfl
    exact ha (List.mem_singleton.mp hc ▸ hb)
  known b hb := List.mem_append_left _ (h.known b hb)

/-- The entry at the front is taken out. -/
theorem InOrder.pop (h : InOrder put dropped out (a :: pending)) :
    InOrder put dropped (out ++ [a]) pending where
  order := by
    rw [h.order, List.append_assoc]
    rfl
  nodup := h.nodup
  known := h.known

theorem InOrder.kept (h : InOrder put dropped out pending) (ha : a ∈ pending) :
    a ∈ put ∧ a ∉ dropped := by
  have hmem : a ∈ put.filter (fun b => b ∉ dropped) := by
    rw [h.order]
    exact List.mem_append_right _ ha
  simpa using List.mem_filter.mp hmem

theorem InOrder.nodup_kept (h : InOrder put dropped out pending) : (out ++ pending).Nodup :=
  h.order ▸ h.nodup.filter _

/-- An entry is dropped wherever it is. -/
theorem InOrder.drop (h : InOrder put dropped out pending) (ha : a ∈ pending) :
    InOrder put (dropped ++ [a]) out (pending.erase a) where
  order := by
    obtain ⟨-, hpending, hdisjoint⟩ := List.nodup_append.mp h.nodup_kept
    have hout : ∀ b ∈ out, b ≠ a := fun b hb he => hdisjoint b hb a ha he
    have hsplit : put.filter (fun b => b ∉ dropped ++ [a]) =
        (put.filter (fun b => b ∉ dropped)).filter (fun b => b ≠ a) := by
      rw [List.filter_filter]
      refine List.filter_congr (fun b _ => ?_)
      simp [and_comm]
    rw [hsplit, h.order, List.filter_append, hpending.erase_eq_filter]
    congr 1
    · exact List.filter_eq_self.mpr (fun b hb => by simpa using hout b hb)
    · refine List.filter_congr (fun b _ => ?_)
      simp [bne, beq_eq_decide]
  nodup := h.nodup
  known b hb := by
    obtain hd | hd := List.mem_append.mp hb
    · exact h.known b hd
    · rw [List.mem_singleton.mp hd]
      exact (h.kept ha).1

/-- Whatever was put in before the front entry is out or dropped. -/
theorem InOrder.earlier (h : InOrder put dropped out (a :: pending)) (hb : [b, a].Sublist put) :
    b ∈ out ∨ b ∈ dropped := by
  by_cases hd : b ∈ dropped
  · exact .inr hd
  · left
    have hda : a ∉ dropped := (h.kept List.mem_cons_self).2
    have hkept : [b, a].Sublist (out ++ a :: pending) := by
      rw [← h.order]
      simpa [List.filter_cons, hd, hda] using hb.filter (fun c => c ∉ dropped)
    obtain ⟨-, hnodup, -⟩ := List.nodup_append.mp h.nodup_kept
    obtain ⟨first, rest, he, hfirst, hrest⟩ := List.sublist_append_iff.mp hkept
    cases first with
    | nil =>
      -- then the front entry would be there twice
      obtain rfl : rest = [b, a] := he.symm
      obtain ⟨hfresh, -⟩ := List.nodup_cons.mp hnodup
      have hmem : a ∈ pending := by
        cases hrest with
        | cons _ h => exact h.subset (by simp)
        | cons_cons _ h => exact h.subset List.mem_cons_self
      exact absurd hmem hfresh
    | cons c first =>
      obtain ⟨rfl, -⟩ := List.cons.inj he
      exact hfirst.subset List.mem_cons_self

end Fifo
