import Mathlib.Data.List.Basic
import Mathlib.Order.Lattice
import Mathlib.Order.Defs.LinearOrder

/-!
# Maps kept as strictly sorted association lists

Iteration visits the entries in key order, each key once, and two maps with
the same lookups are equal.
-/

/-- A finite map whose entries are listed in strictly increasing key order. -/
structure OrderedMap (κ ν : Type) [LinearOrder κ] where
  entries : List (κ × ν)
  sorted : entries.Pairwise (fun e f => e.1 < f.1)
  deriving DecidableEq

namespace OrderedMap

variable {κ ν : Type} [LinearOrder κ]

def lookupEntries (k : κ) : List (κ × ν) → Option ν
  | [] => none
  | (k', v) :: rest => if k = k' then some v else lookupEntries k rest

/-- Insert at the sorted position, or replace the value of an entry already there. -/
def assignEntries (k : κ) (v : ν) : List (κ × ν) → List (κ × ν)
  | [] => [(k, v)]
  | (k', v') :: rest =>
    if k = k' then (k, v) :: rest
    else if k < k' then (k, v) :: (k', v') :: rest
    else (k', v') :: assignEntries k v rest

@[simp] theorem lookupEntries_nil (k : κ) : lookupEntries k ([] : List (κ × ν)) = none := rfl
@[simp] theorem lookupEntries_cons (k k' : κ) (v : ν) (rest : List (κ × ν)) :
    lookupEntries k ((k', v) :: rest) = if k = k' then some v else lookupEntries k rest := rfl

theorem lookupEntries_eq_none {k : κ} {es : List (κ × ν)} (h : ∀ e ∈ es, e.1 ≠ k) :
    lookupEntries k es = none := by
  induction es with
  | nil => rfl
  | cons e rest ih =>
    obtain ⟨k', v⟩ := e
    have hk : k ≠ k' := fun he => h (k', v) (by simp) he.symm
    simpa [hk] using ih fun f hf => h f (List.mem_cons_of_mem _ hf)

theorem mem_of_lookupEntries {k : κ} {v : ν} {es : List (κ × ν)}
    (h : lookupEntries k es = some v) : (k, v) ∈ es := by
  induction es with
  | nil => simp at h
  | cons e rest ih =>
    obtain ⟨k', v'⟩ := e
    by_cases hk : k = k'
    · subst hk
      simp only [lookupEntries_cons, if_true, Option.some.injEq] at h
      simp [h]
    · simp only [lookupEntries_cons, hk, if_false] at h
      exact List.mem_cons_of_mem _ (ih h)

theorem lookupEntries_of_mem {k : κ} {v : ν} {es : List (κ × ν)}
    (hs : es.Pairwise (fun e f => e.1 < f.1)) (h : (k, v) ∈ es) :
    lookupEntries k es = some v := by
  induction es with
  | nil => simp at h
  | cons e rest ih =>
    obtain ⟨hlt, hrest⟩ := List.pairwise_cons.mp hs
    rcases List.mem_cons.mp h with rfl | hmem
    · simp
    · have hk : k ≠ e.1 := (hlt (k, v) hmem).ne'
      simpa [lookupEntries, hk] using ih hrest hmem

theorem mem_assignEntries {k : κ} {v : ν} {es : List (κ × ν)} {e : κ × ν}
    (h : e ∈ assignEntries k v es) : e = (k, v) ∨ e ∈ es := by
  induction es with
  | nil => simpa [assignEntries] using h
  | cons f rest ih =>
    obtain ⟨k', v'⟩ := f
    simp only [assignEntries] at h
    split at h
    · rcases List.mem_cons.mp h with h | h
      · exact .inl h
      · exact .inr (List.mem_cons_of_mem _ h)
    · split at h
      · exact List.mem_cons.mp h
      · rcases List.mem_cons.mp h with h | h
        · exact .inr (h ▸ List.mem_cons_self)
        · exact (ih h).imp id (List.mem_cons_of_mem _)

theorem sorted_assignEntries (k : κ) (v : ν) {es : List (κ × ν)}
    (hs : es.Pairwise (fun e f => e.1 < f.1)) :
    (assignEntries k v es).Pairwise (fun e f => e.1 < f.1) := by
  induction es with
  | nil => simp [assignEntries]
  | cons f rest ih =>
    obtain ⟨k', v'⟩ := f
    obtain ⟨hlt, hrest⟩ := List.pairwise_cons.mp hs
    simp only [assignEntries]
    split_ifs with he hl
    · subst he
      exact List.pairwise_cons.mpr ⟨hlt, hrest⟩
    · refine List.pairwise_cons.mpr ⟨?_, hs⟩
      intro e hmem
      rcases List.mem_cons.mp hmem with rfl | hmem
      · exact hl
      · exact hl.trans (hlt e hmem)
    · refine List.pairwise_cons.mpr ⟨?_, ih hrest⟩
      intro e hmem
      rcases mem_assignEntries hmem with rfl | hmem
      · exact lt_of_le_of_ne (not_lt.mp hl) (Ne.symm he)
      · exact hlt e hmem

theorem lookupEntries_assignEntries (k : κ) (v : ν) (es : List (κ × ν)) (k' : κ) :
    lookupEntries k' (assignEntries k v es) = if k' = k then some v else lookupEntries k' es := by
  induction es with
  | nil => rfl
  | cons f rest ih =>
    obtain ⟨k₁, v₁⟩ := f
    simp only [assignEntries]
    by_cases he : k = k₁
    · subst he
      by_cases hk : k' = k <;> simp [hk]
    · by_cases hl : k < k₁
      · simp [he, hl]
      · simp only [he, hl, if_false, lookupEntries_cons, ih]
        by_cases hk : k' = k
        · subst hk
          simp [he]
        · simp [hk]

def empty : OrderedMap κ ν := ⟨[], .nil⟩

def lookup (m : OrderedMap κ ν) (k : κ) : Option ν := lookupEntries k m.entries

def insertOrAssign (m : OrderedMap κ ν) (k : κ) (v : ν) : OrderedMap κ ν :=
  ⟨assignEntries k v m.entries, sorted_assignEntries k v m.sorted⟩

def erase (m : OrderedMap κ ν) (k : κ) : OrderedMap κ ν :=
  ⟨m.entries.filter (fun e => e.1 ≠ k), m.sorted.filter _⟩

@[simp] theorem lookup_empty (k : κ) : (empty : OrderedMap κ ν).lookup k = none := rfl

@[simp] theorem lookup_insertOrAssign (m : OrderedMap κ ν) (k : κ) (v : ν) (k' : κ) :
    (m.insertOrAssign k v).lookup k' = if k' = k then some v else m.lookup k' :=
  lookupEntries_assignEntries k v m.entries k'

@[simp] theorem lookup_erase (m : OrderedMap κ ν) (k k' : κ) :
    (m.erase k).lookup k' = if k' = k then none else m.lookup k' := by
  simp only [lookup, erase]
  induction m.entries with
  | nil => simp
  | cons e rest ih =>
    obtain ⟨k₁, v₁⟩ := e
    by_cases h₁ : k₁ = k
    · subst h₁
      by_cases hk : k' = k₁ <;> simp_all
    · by_cases hk : k' = k₁ <;> simp_all

theorem lookup_eq_some_iff {m : OrderedMap κ ν} {k : κ} {v : ν} :
    m.lookup k = some v ↔ (k, v) ∈ m.entries :=
  ⟨mem_of_lookupEntries, lookupEntries_of_mem m.sorted⟩

private theorem entries_ext {es fs : List (κ × ν)} (hes : es.Pairwise (fun e f => e.1 < f.1))
    (hfs : fs.Pairwise (fun e f => e.1 < f.1))
    (h : ∀ k, lookupEntries k es = lookupEntries k fs) : es = fs := by
  induction es generalizing fs with
  | nil =>
    cases fs with
    | nil => rfl
    | cons f rest =>
      obtain ⟨k, v⟩ := f
      simpa using h k
  | cons e rest ih =>
    obtain ⟨k, v⟩ := e
    obtain ⟨hlt, hrest⟩ := List.pairwise_cons.mp hes
    cases fs with
    | nil => simpa using h k
    | cons f rest' =>
      obtain ⟨k', v'⟩ := f
      obtain ⟨hlt', hrest'⟩ := List.pairwise_cons.mp hfs
      -- the two heads are the least keys of the same map
      have hkk : k = k' := by
        have hk : (k, v) ∈ (k', v') :: rest' := mem_of_lookupEntries ((h k).symm.trans (by simp))
        have hk' : (k', v') ∈ (k, v) :: rest := mem_of_lookupEntries ((h k').trans (by simp))
        rcases List.mem_cons.mp hk with he | hk
        · exact congrArg Prod.fst he
        · rcases List.mem_cons.mp hk' with he | hk'
          · exact (congrArg Prod.fst he).symm
          · exact absurd (hlt' _ hk) (lt_asymm (hlt _ hk'))
      subst hkk
      have hv : v = v' := by simpa using h k
      subst hv
      have htail : rest = rest' := by
        apply ih hrest hrest'
        intro j
        have hj := h j
        by_cases he : j = k
        · subst he
          rw [lookupEntries_eq_none fun e hm => (hlt e hm).ne',
            lookupEntries_eq_none fun e hm => (hlt' e hm).ne']
        · simpa [he] using hj
      rw [htail]

/-- A sorted map is determined by its lookups. -/
theorem ext_lookup {m n : OrderedMap κ ν} (h : ∀ k, m.lookup k = n.lookup k) : m = n := by
  obtain ⟨es, hes⟩ := m
  obtain ⟨fs, hfs⟩ := n
  have he : es = fs := entries_ext hes hfs h
  subst he
  rfl

end OrderedMap
