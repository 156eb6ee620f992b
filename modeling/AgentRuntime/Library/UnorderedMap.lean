import Mathlib.Data.Finmap

/-!
# Hash tables as finite maps

A hash table is a finite map that promises nothing about iteration order. A
loop over the table takes the order as an argument, any list of its keys.
-/

abbrev UnorderedMap (κ ν : Type) := Finmap (fun _ : κ => ν)

namespace UnorderedMap

variable {κ ν : Type} [DecidableEq κ]

/-- `order` lists the keys of the table, each once: one possible iteration order. -/
def Enumerates (order : List κ) (m : UnorderedMap κ ν) : Prop :=
  order.Nodup ∧ order.toFinset = Finmap.keys m

instance (order : List κ) (m : UnorderedMap κ ν) : Decidable (Enumerates order m) :=
  inferInstanceAs (Decidable (_ ∧ _))

theorem Enumerates.mem_iff {order : List κ} {m : UnorderedMap κ ν} (h : Enumerates order m)
    (k : κ) : k ∈ order ↔ ∃ v, m.lookup k = some v := by
  rw [← List.mem_toFinset, h.2, Finmap.mem_keys, Finmap.mem_iff]

/-- Insert when the key is absent, and keep the entry when it is present. -/
def emplace (m : UnorderedMap κ ν) (k : κ) (v : ν) : UnorderedMap κ ν :=
  match m.lookup k with
  | some _ => m
  | none => m.insert k v

theorem lookup_insert_eq (m : UnorderedMap κ ν) (k k' : κ) (v : ν) :
    (m.insert k v).lookup k' = if k' = k then some v else m.lookup k' := by
  by_cases h : k' = k
  · subst h
    simp [Finmap.lookup_insert]
  · simp [h, Finmap.lookup_insert_of_ne m h]

theorem lookup_erase_eq (m : UnorderedMap κ ν) (k k' : κ) :
    (m.erase k).lookup k' = if k' = k then none else m.lookup k' := by
  by_cases h : k' = k
  · subst h
    simp [Finmap.lookup_erase]
  · simp [h, Finmap.lookup_erase_ne h]

theorem emplace_of_none {m : UnorderedMap κ ν} {k : κ} (v : ν) (h : m.lookup k = none) :
    m.emplace k v = m.insert k v := by
  simp [emplace, h]

theorem emplace_of_some {m : UnorderedMap κ ν} {k : κ} {w : ν} (v : ν) (h : m.lookup k = some w) :
    m.emplace k v = m := by
  simp [emplace, h]

/-- Where the key is absent, `emplace` inserts it. -/
theorem lookup_emplace_of_none {m : UnorderedMap κ ν} {k : κ} (v : ν) (h : m.lookup k = none)
    (k' : κ) : (m.emplace k v).lookup k' = if k' = k then some v else m.lookup k' := by
  rw [emplace_of_none v h, lookup_insert_eq]

/-- A key that was present keeps its value under `emplace`. -/
theorem lookup_emplace_of_some {m : UnorderedMap κ ν} {k k' : κ} {v w : ν}
    (h : m.lookup k' = some w) : (m.emplace k v).lookup k' = some w := by
  cases hk : m.lookup k with
  | some u => rw [emplace_of_some v hk, h]
  | none =>
    have hne : k' ≠ k := by
      rintro rfl
      rw [hk] at h
      cases h
    rw [emplace_of_none v hk, lookup_insert_eq, if_neg hne, h]

end UnorderedMap
