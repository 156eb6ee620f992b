import AgentRuntime.Core.Resource
import AgentRuntime.Library.FloatingPoint

/-!
# Quantities as floating point numbers

`ResourceQuantity::ToDouble` and `ResourceQuantity::FromDouble`. The guard of
`FromDouble` compares with the binary64 nearest to the largest 64-bit integer,
which is one more than that integer.
-/
namespace AgentRuntime

open FloatingPoint

abbrev binary64 : Format where
  precision := 53
  precision_pos := by decide
  minExponent := -1074
  maxExponent := 1024

abbrev Double := Value binary64

namespace ResourceQuantity

/-- `static_cast<double>(kScale)`. -/
def kScaleDouble : Finite binary64 where
  value := kScale
  form := ⟨10000, 0, by decide, by decide, by norm_num [kScale]⟩
  bounded := by
    calc |((kScale : ℤ) : ℚ)| < 2 ^ (14 : ℤ) := by norm_num [kScale]
      _ ≤ 2 ^ (1024 : ℤ) := zpow_le_zpow_right₀ (by norm_num) (by norm_num)

/-- `static_cast<double>(std::numeric_limits<std::int64_t>::max())`. -/
def largestDouble : Double := .ofRational int64Max

/-- The quantity of the integer that `std::llround` returns. Where the rounded value is no 64-bit
integer the result of `std::llround` is not specified, and `unspecified` gives it. -/
def llround (unspecified : Double → ResourceQuantity) (scaled : Double) : ResourceQuantity :=
  match scaled with
  | .finite y => if h : FitsInt64 (roundAway y.value) then ⟨roundAway y.value, h⟩
    else unspecified scaled
  | .nan | .infinite _ => unspecified scaled

def fromDouble (unspecified : Double → ResourceQuantity) : Double → Option ResourceQuantity
  | .nan | .infinite _ => none
  | .finite x =>
    if x.value < 0 then none
    else
      let scaled := x.mul kScaleDouble
      if largestDouble.less scaled then none else some (llround unspecified scaled)

def toDouble (q : ResourceQuantity) : Double :=
  match Value.ofRational q.value with
  | .finite d => d.div kScaleDouble
  | special => special

theorem toDouble_of_finite {q : ResourceQuantity} {d : Finite binary64}
    (h : Value.ofRational q.value = .finite d) : q.toDouble = d.div kScaleDouble := by
  -- the equation lemma of the definition would evaluate the rounding
  delta toDouble
  rw [h]

end ResourceQuantity

/-- The overload of `Set` for floating point quantities. -/
def ResourceSet.setDouble (unspecified : Double → ResourceQuantity) (rs : ResourceSet)
    (name : String) (quantity : Double) : Status × ResourceSet :=
  if isValidResourceName name then
    match ResourceQuantity.fromDouble unspecified quantity with
    | none => (.InvalidArgument "Invalid Resource Quantity", rs)
    | some parsed => rs.set name parsed
  else (.InvalidArgument "invalid resource name", rs)

namespace ResourceQuantity

/-! ## The guard -/

theorem largestDouble_eq : ∃ y : Finite binary64, largestDouble = .finite y ∧ y.value = 2 ^ 63 := by
  obtain ⟨y, hy, hvalue⟩ := Value.ofRational_of_le (f := binary64) (x := int64Max) (k := 63)
    (by norm_num [int64Max]) (by norm_num [int64Max]) (by decide) (by decide)
  refine ⟨y, hy, ?_⟩
  rw [hvalue, nearest_binade (k := 62) (by norm_num [int64Max]) (by norm_num [int64Max]) (by decide),
    roundEven_eq (n := 2 ^ 53)]
  · norm_num
  · norm_num [int64Max, abs_lt]

/-- What passes the guard is finite and at most `2 ^ 63`. -/
theorem guard_iff {x : ℚ} (h0 : 0 ≤ x) : largestDouble.less (.ofRational x) = false ↔
    ∃ y : Finite binary64, Value.ofRational x = .finite y ∧ y.value ≤ 2 ^ 63 := by
  obtain ⟨largest, hlargest, hvalue⟩ := largestDouble_eq
  obtain ⟨y, hy, -⟩ | ⟨hinf, -⟩ := Value.ofRational_cases (f := binary64) x
  · simp [hy, hlargest, hvalue, Value.less]
  · simp [hinf, hlargest, Value.less, h0]

/-- A value below `2 ^ 63` is small or an integer, so rounding it stays below. -/
theorem roundAway_lt {x : ℚ} (hform : HasForm binary64 x) (h0 : 0 ≤ x) (hx : x < 2 ^ 63) :
    roundAway x < 2 ^ 63 := by
  rw [roundAway_of_nonneg h0, Int.floor_lt]
  push_cast
  by_cases hsmall : x < 2 ^ 53
  · linarith
  · obtain ⟨n, hn⟩ := hform.multiple (k := 53) (by exact_mod_cast not_lt.mp hsmall)
    have hinteger : x = ((2 * n : ℤ) : ℚ) := by
      rw [hn]
      norm_num
      ring
    have hlt : 2 * n < 2 ^ 63 := by
      rw [hinteger] at hx
      exact_mod_cast hx
    have hle : ((2 * n : ℤ) : ℚ) ≤ ((2 ^ 63 - 1 : ℤ) : ℚ) := by exact_mod_cast Int.le_sub_one_of_lt hlt
    rw [hinteger]
    push_cast at hle ⊢
    linarith

/-- Only exact results between two midpoints are rounded to `2 ^ 63`. -/
theorem near_limit {y : ℚ} (h0 : 0 ≤ y) (h : nearest binary64 y = 2 ^ 63) :
    2 ^ 63 - 512 ≤ y ∧ y ≤ 2 ^ 63 + 1024 := by
  have hlo : 2 ^ (62 : ℤ) ≤ y := by
    by_contra hlt
    have := nearest_le (f := binary64) (k := 62) h0 (not_le.mp hlt).le (by decide)
    norm_num [h] at this
  have hhi : y ≤ 2 ^ (64 : ℤ) := by
    by_contra hlt
    have := le_nearest (f := binary64) (k := 64) (not_le.mp hlt).le (by decide)
    norm_num [h] at this
  have herror := abs_roundEven_sub
  by_cases hside : y ≤ 2 ^ (63 : ℤ)
  · rw [nearest_binade (k := 62) hlo (by simpa using hside) (by decide)] at h
    have hround : (roundEven (y / 2 ^ (62 + 1 - (53 : ℤ))) : ℚ) = 2 ^ 53 := by
      norm_num at h ⊢
      linarith
    have := abs_le.mp (herror (y / 2 ^ (62 + 1 - (53 : ℤ))))
    rw [hround] at this
    norm_num at this hside ⊢
    constructor <;> linarith
  · rw [nearest_binade (k := 63) (not_le.mp hside).le (by simpa using hhi) (by decide)] at h
    have hround : (roundEven (y / 2 ^ (63 + 1 - (53 : ℤ))) : ℚ) = 2 ^ 52 := by
      norm_num at h ⊢
      linarith
    have := abs_le.mp (herror (y / 2 ^ (63 + 1 - (53 : ℤ))))
    rw [hround] at this
    norm_num at this hside ⊢
    constructor <;> linarith

/-- The one input whose product with 10000 is rounded to `2 ^ 63`. -/
def atLimit : ℚ := 922337203685477.625

theorem product_eq_limit_iff (x : Finite binary64) (h0 : 0 ≤ x.value) :
    nearest binary64 (x.value * kScaleDouble.value) = 2 ^ 63 ↔ x.value = atLimit := by
  constructor
  · intro h
    obtain ⟨hlo, hhi⟩ := near_limit (by simp only [kScaleDouble, kScale]; positivity) h
    norm_num [kScaleDouble, kScale] at hlo hhi
    obtain ⟨n, hn⟩ := x.form.multiple (k := 49) (by norm_num; linarith)
    norm_num at hn
    rw [hn] at hlo hhi
    have hlo' : 9223372036854775296 ≤ 1250 * n := by
      have : (9223372036854775296 : ℚ) ≤ ((1250 * n : ℤ) : ℚ) := by
        push_cast
        linarith
      exact_mod_cast this
    have hhi' : 1250 * n ≤ 9223372036854776832 := by
      have : ((1250 * n : ℤ) : ℚ) ≤ 9223372036854776832 := by
        push_cast
        linarith
      exact_mod_cast this
    obtain rfl : n = 7378697629483821 := by omega
    rw [hn]
    norm_num [atLimit]
  · intro h
    rw [h, nearest_binade (k := 63) (by norm_num [atLimit, kScaleDouble, kScale])
      (by norm_num [atLimit, kScaleDouble, kScale]) (by decide), roundEven_eq (n := 2 ^ 52)]
    · norm_num
    · norm_num [atLimit, kScaleDouble, kScale, abs_lt]

/-! ## What is accepted -/

/-- The scaled input is rounded half away from zero to an integer between 0 and the largest
64-bit one. -/
def RoundsInRange (scaled : Double) (n : ℤ) : Prop :=
  ∃ y : Finite binary64, scaled = .finite y ∧ roundAway y.value = n ∧ 0 ≤ n ∧ n ≤ int64Max

/-- An accepted input is converted to the integer that its scaled value is rounded to, which is in
range, and every input whose scaled value is rounded into the range is accepted. -/
structure ConvertsInRange (x : Finite binary64) : Prop where
  accepted : ∀ unspecified q, fromDouble unspecified (.finite x) = some q →
    RoundsInRange (x.mul kScaleDouble) q.value
  accepts : ∀ unspecified n, RoundsInRange (x.mul kScaleDouble) n →
    ∃ q, fromDouble unspecified (.finite x) = some q

theorem scaled_nonneg {x : Finite binary64} (h0 : 0 ≤ x.value) :
    0 ≤ x.value * kScaleDouble.value := by
  simp only [kScaleDouble, kScale]
  positivity

/-- `FromDouble` of a value that is not negative, when the scaled value is finite. -/
theorem fromDouble_scaled (unspecified : Double → ResourceQuantity) {x y : Finite binary64}
    (h0 : 0 ≤ x.value) (hy : x.mul kScaleDouble = .finite y) :
    fromDouble unspecified (.finite x) =
      if y.value ≤ 2 ^ 63 then some (llround unspecified (.finite y)) else none := by
  obtain ⟨largest, hlargest, hvalue⟩ := largestDouble_eq
  simp only [fromDouble, if_neg (not_lt.mpr h0), hy, hlargest, Value.less, hvalue]
  by_cases hle : y.value ≤ 2 ^ 63
  · simp [hle]
  · simp [hle, not_le.mp hle]

theorem fromDouble_eq_some {unspecified : Double → ResourceQuantity} {x : Finite binary64}
    (h0 : 0 ≤ x.value) {q : ResourceQuantity} (h : fromDouble unspecified (.finite x) = some q) :
    ∃ y : Finite binary64, x.mul kScaleDouble = .finite y ∧
      y.value = nearest binary64 (x.value * kScaleDouble.value) ∧ y.value ≤ 2 ^ 63 ∧
      q = llround unspecified (.finite y) := by
  simp only [fromDouble, if_neg (not_lt.mpr h0)] at h
  split at h
  · cases h
  · rename_i hguard
    cases h
    obtain ⟨y, hy, hle⟩ := (guard_iff (scaled_nonneg h0)).mp (by simpa [Finite.mul] using hguard)
    obtain ⟨z, hz, hvalue⟩ | ⟨hinf, -⟩ :=
      Value.ofRational_cases (f := binary64) (x.value * kScaleDouble.value)
    · obtain rfl : y = z := by
        rw [hy] at hz
        cases hz
        rfl
      exact ⟨y, hy, hvalue, hle, by rw [Finite.mul, hy]⟩
    · rw [hy] at hinf
      cases hinf

theorem llround_fits (unspecified : Double → ResourceQuantity) {y : Finite binary64}
    (h : FitsInt64 (roundAway y.value)) :
    (llround unspecified (.finite y)).value = roundAway y.value := by
  simp only [llround, dif_pos h]

/-- The input `atLimit` passes the guard, and its scaled value is no 64-bit integer. -/
theorem scaled_atLimit {x : Finite binary64} (hx : x.value = atLimit) :
    ∃ y : Finite binary64, x.mul kScaleDouble = .finite y ∧ roundAway y.value = 2 ^ 63 ∧
      ∀ unspecified, fromDouble unspecified (.finite x) =
        some (llround unspecified (.finite y)) := by
  have h0 : 0 ≤ x.value := by norm_num [hx, atLimit]
  obtain ⟨y, hy, hvalue⟩ := Value.ofRational_of_le (f := binary64) (k := 64) (scaled_nonneg h0)
    (by norm_num [hx, atLimit, kScaleDouble, kScale]) (by decide) (by decide)
  rw [(product_eq_limit_iff x h0).mpr hx] at hvalue
  refine ⟨y, hy, ?_, ?_⟩
  · have hinteger : y.value = ((2 ^ 63 : ℤ) : ℚ) := by
      rw [hvalue]
      norm_num
    rw [hinteger, roundAway_intCast]
  · intro unspecified
    rw [fromDouble_scaled unspecified h0 hy, if_pos hvalue.le]

theorem not_convertsInRange {x : Finite binary64} (hx : x.value = atLimit) :
    ¬ ConvertsInRange x := by
  intro h
  obtain ⟨y, hy, hround, hsome⟩ := scaled_atLimit hx
  obtain ⟨z, hz, hvalue, -, hmax⟩ := h.accepted (fun _ => zero) _ (hsome _)
  rw [hy] at hz
  cases hz
  rw [← hvalue, hround] at hmax
  simp only [int64Max] at hmax
  omega

/-- The conversion of a finite input that is not negative stays in range exactly when the input
is not the one whose scaled value is `2 ^ 63`. -/
theorem converts_in_range_iff (x : Finite binary64) (h0 : 0 ≤ x.value) :
    ConvertsInRange x ↔ x.value ≠ atLimit := by
  constructor
  · intro h hx
    exact not_convertsInRange hx h
  · intro hx
    refine ⟨?_, ?_⟩
    · intro unspecified q hq
      obtain ⟨y, hy, hvalue, hle, rfl⟩ := fromDouble_eq_some h0 hq
      have hlt : y.value < 2 ^ 63 := by
        apply lt_of_le_of_ne hle
        rw [hvalue]
        exact fun he => hx ((product_eq_limit_iff x h0).mp he)
      have hnonneg : 0 ≤ y.value := by
        rw [hvalue]
        exact nearest_nonneg (scaled_nonneg h0)
      have hround := roundAway_lt y.form hnonneg hlt
      have hround0 := roundAway_nonneg hnonneg
      have hfits : FitsInt64 (roundAway y.value) := by
        simp only [FitsInt64, int64Min, int64Max]
        omega
      rw [llround_fits unspecified hfits]
      exact ⟨y, hy, rfl, hround0, hfits.2⟩
    · rintro unspecified n ⟨y, hy, rfl, -, hmax⟩
      rw [fromDouble_scaled unspecified h0 hy]
      refine ⟨_, if_pos ?_⟩
      by_contra hbig
      have h1 : (2 ^ 63 : ℤ) ≤ roundAway y.value := by
        rw [roundAway_of_nonneg (by linarith), Int.le_floor]
        push_cast
        linarith
      simp only [int64Max] at hmax
      omega

theorem converts_in_range_scale : ConvertsInRange kScaleDouble :=
  (converts_in_range_iff kScaleDouble (by norm_num [kScaleDouble, kScale])).mpr
    (by norm_num [kScaleDouble, kScale, atLimit])

end ResourceQuantity

namespace Sample

/-- The input 922337203685477.625. -/
def limitInput : Finite binary64 where
  value := ResourceQuantity.atLimit
  form := ⟨7378697629483821, -3, by decide, by decide, by norm_num [ResourceQuantity.atLimit]⟩
  bounded := by
    calc |ResourceQuantity.atLimit| < 2 ^ (50 : ℤ) := by norm_num [ResourceQuantity.atLimit]
      _ ≤ 2 ^ (1024 : ℤ) := zpow_le_zpow_right₀ (by norm_num) (by norm_num)

end Sample

open Sample in
/-- `FromDouble` accepts this input, and its scaled value is rounded to `2 ^ 63`. -/
theorem ResourceQuantity.limitInput_not_in_range : 0 ≤ limitInput.value ∧
    (∀ unspecified, (fromDouble unspecified (.finite limitInput)).isSome = true) ∧
    ¬ ConvertsInRange limitInput := by
  obtain ⟨y, -, -, hsome⟩ := scaled_atLimit (x := limitInput) rfl
  exact ⟨by norm_num [limitInput, atLimit], fun unspecified => by simp [hsome],
    not_convertsInRange rfl⟩

end AgentRuntime
