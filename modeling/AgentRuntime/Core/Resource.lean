import AgentRuntime.Common.Int64
import AgentRuntime.Common.Status
import AgentRuntime.Library.OrderedMap
import Mathlib.Data.String.Basic

/-!
# Logical resources

Fixed-point quantities, canonical resource sets and the pool that does the
accounting of one owner. A `ResourceSet` can only be changed through `Set`, so
the canonical form is part of the type.
-/
namespace AgentRuntime

/-- A fixed-point quantity: one resource unit is 10000 internal units. -/
structure ResourceQuantity where
  value : Int
  fits : FitsInt64 value
  deriving DecidableEq

namespace ResourceQuantity

def kScale : Int := 10000

def zero : ResourceQuantity := ⟨0, by decide⟩

def isZero (q : ResourceQuantity) : Bool := q.value = 0

instance : LT ResourceQuantity := ⟨fun p q => p.value < q.value⟩
instance (p q : ResourceQuantity) : Decidable (p < q) := inferInstanceAs (Decidable (_ < _))

instance : Add ResourceQuantity := ⟨fun p q => ⟨wrap64 (p.value + q.value), fitsInt64_wrap64 _⟩⟩
instance : Sub ResourceQuantity := ⟨fun p q => ⟨wrap64 (p.value - q.value), fitsInt64_wrap64 _⟩⟩

theorem ext {p q : ResourceQuantity} (h : p.value = q.value) : p = q := by
  cases p
  cases q
  cases h
  rfl

@[simp] theorem value_zero : zero.value = 0 := rfl
theorem lt_iff (p q : ResourceQuantity) : p < q ↔ p.value < q.value := Iff.rfl
@[simp] theorem isZero_iff (q : ResourceQuantity) : q.isZero = true ↔ q.value = 0 := by
  simp [isZero]

theorem value_add {p q : ResourceQuantity} (h : FitsInt64 (p.value + q.value)) :
    (p + q).value = p.value + q.value := wrap64_of_fits h
theorem value_sub {p q : ResourceQuantity} (h : FitsInt64 (p.value - q.value)) :
    (p - q).value = p.value - q.value := wrap64_of_fits h

/-- The difference of two non-negative quantities never leaves the 64-bit range. -/
theorem value_sub_of_nonneg {p q : ResourceQuantity} (hp : 0 ≤ p.value) (hq : 0 ≤ q.value) :
    (p - q).value = p.value - q.value := by
  obtain ⟨hplo, hphi⟩ := p.fits
  obtain ⟨hqlo, hqhi⟩ := q.fits
  simp only [int64Min, int64Max] at hplo hphi hqlo hqhi
  apply value_sub
  constructor
  · simp only [int64Min]
    omega
  · simp only [int64Max]
    omega

end ResourceQuantity

def isResourceChar (c : Char) : Bool :=
  ('a' ≤ c && c ≤ 'z') || ('A' ≤ c && c ≤ 'Z') || ('0' ≤ c && c ≤ '9') ||
    (c == '_' || c == '-' || c == '.')

def isValidResourceName (name : String) : Bool :=
  !name.isEmpty && name.toList.all isResourceChar

/-- Zero is stored as absence, so every stored quantity is positive. -/
structure ResourceSet where
  values : OrderedMap String ResourceQuantity
  canonical : ∀ name quantity, values.lookup name = some quantity →
    isValidResourceName name = true ∧ 0 < quantity.value
  deriving DecidableEq

namespace ResourceSet

def empty : ResourceSet := ⟨.empty, by simp⟩

/-- The internal fixed-point overload of `Set`. -/
def set (rs : ResourceSet) (name : String) (quantity : ResourceQuantity) : Status × ResourceSet :=
  if hn : isValidResourceName name = true then
    if hneg : quantity < ResourceQuantity.zero then
      (.InvalidArgument "resource quantity cannot be negative", rs)
    else if hz : quantity.isZero = true then
      (.OK, ⟨rs.values.erase name, by
        intro name' q' h
        rw [OrderedMap.lookup_erase] at h
        split at h
        · cases h
        · exact rs.canonical name' q' h⟩)
    else
      (.OK, ⟨rs.values.insertOrAssign name quantity, by
        intro name' q' h
        rw [OrderedMap.lookup_insertOrAssign] at h
        split at h
        · rename_i he
          cases h
          rw [he]
          refine ⟨hn, ?_⟩
          rw [ResourceQuantity.lt_iff, ResourceQuantity.value_zero] at hneg
          rw [ResourceQuantity.isZero_iff] at hz
          omega
        · exact rs.canonical name' q' h⟩)
  else (.InvalidArgument "Invalid Resource Name", rs)

/-- Missing resources are treated as zero. -/
def get (rs : ResourceSet) (name : String) : ResourceQuantity :=
  match rs.values.lookup name with
  | none => .zero
  | some quantity => quantity

/-- The quantity of a name as an integer. -/
def amount (rs : ResourceSet) (name : String) : Int := (rs.get name).value

theorem amount_nonneg (rs : ResourceSet) (name : String) : 0 ≤ rs.amount name := by
  simp only [amount, get]
  cases h : rs.values.lookup name with
  | none => simp
  | some quantity => exact (rs.canonical name quantity h).2.le

@[simp] theorem amount_empty (name : String) : empty.amount name = 0 := rfl

/-- A canonical set is determined by what `Get` returns. -/
theorem ext_amount {rs rs' : ResourceSet} (h : ∀ name, rs.amount name = rs'.amount name) :
    rs = rs' := by
  have hvalues : rs.values = rs'.values := by
    apply OrderedMap.ext_lookup
    intro name
    have ha := h name
    simp only [amount, get] at ha
    cases hl : rs.values.lookup name with
    | none =>
      cases hl' : rs'.values.lookup name with
      | none => rfl
      | some q' =>
        have := (rs'.canonical name q' hl').2
        simp only [hl, hl', ResourceQuantity.value_zero] at ha
        omega
    | some q =>
      cases hl' : rs'.values.lookup name with
      | none =>
        have := (rs.canonical name q hl).2
        simp only [hl, hl', ResourceQuantity.value_zero] at ha
        omega
      | some q' =>
        simp only [hl, hl'] at ha
        rw [ResourceQuantity.ext ha]
  obtain ⟨values, hc⟩ := rs
  obtain ⟨values', hc'⟩ := rs'
  cases hvalues
  rfl

/-- An accepted `Set` writes exactly one name. -/
theorem set_spec (rs : ResourceSet) {name : String} {quantity : ResourceQuantity}
    (hn : isValidResourceName name = true) (hq : 0 ≤ quantity.value) :
    (rs.set name quantity).1 = .OK ∧
    ∀ name', (rs.set name quantity).2.amount name' =
      if name' = name then quantity.value else rs.amount name' := by
  have hneg : ¬ quantity < ResourceQuantity.zero := by
    rw [ResourceQuantity.lt_iff, ResourceQuantity.value_zero]
    omega
  by_cases hz : quantity.isZero = true
  · simp only [set, dif_pos hn, dif_neg hneg, dif_pos hz, true_and]
    intro name'
    simp only [amount, get, OrderedMap.lookup_erase]
    by_cases he : name' = name
    · simp [he, (ResourceQuantity.isZero_iff quantity).mp hz]
    · simp [he]
  · simp only [set, dif_pos hn, dif_neg hneg, dif_neg hz, true_and]
    intro name'
    simp only [amount, get, OrderedMap.lookup_insertOrAssign]
    by_cases he : name' = name <;> simp [he]

/-- A rejected `Set` changes nothing. -/
theorem set_rejected (rs : ResourceSet) {name : String} {quantity : ResourceQuantity}
    (h : (rs.set name quantity).1.ok = false) : (rs.set name quantity).2 = rs := by
  simp only [set] at h ⊢
  split_ifs at h ⊢ <;> simp_all

end ResourceSet

structure ResourceRequest where
  resources : ResourceSet
  deriving DecidableEq

namespace ResourceRequest

def amount (request : ResourceRequest) (name : String) : Int := request.resources.amount name

theorem amount_nonneg (request : ResourceRequest) (name : String) : 0 ≤ request.amount name :=
  request.resources.amount_nonneg name

def none : ResourceRequest := ⟨.empty⟩

end ResourceRequest

/-! ## CPUs for concrete runs -/

namespace Sample

def oneCpu : ResourceQuantity := ⟨10000, by decide⟩
def twoCpus : ResourceQuantity := ⟨20000, by decide⟩
def cpu (quantity : ResourceQuantity) : ResourceSet := (ResourceSet.empty.set "cpu" quantity).2

end Sample

end AgentRuntime
