import Mathlib.Algebra.Order.Field.Power
import Mathlib.Data.Int.Log
import Mathlib.Data.Rat.Floor
import Mathlib.Tactic.FieldSimp
import Mathlib.Tactic.Linarith
import Mathlib.Tactic.NormNum
import Mathlib.Tactic.Positivity
import Mathlib.Tactic.Ring

/-!
# Binary floating point

A finite value is the rational number that it denotes, so both zeros are the
rational zero. An operation gives the exact result rounded to the nearest
representable value, ties to the even one, or an infinity when that value is
out of range. Nothing here depends on how wide the significand is.
-/
namespace FloatingPoint

/-! ## Rounding to an integer -/

/-- The nearest integer, and of two nearest ones the even one. -/
def roundEven (x : ℚ) : ℤ :=
  if Int.fract x < 1 / 2 then ⌊x⌋
  else if 1 / 2 < Int.fract x then ⌊x⌋ + 1
  else if ⌊x⌋ % 2 = 0 then ⌊x⌋ else ⌊x⌋ + 1

/-- The nearest integer, and of two nearest ones the one away from zero. -/
def roundAway (x : ℚ) : ℤ := if 0 ≤ x then ⌊x + 1 / 2⌋ else -⌊-x + 1 / 2⌋

theorem abs_roundEven_sub (x : ℚ) : |(roundEven x : ℚ) - x| ≤ 1 / 2 := by
  have hx := Int.floor_add_fract x
  have hnonneg := Int.fract_nonneg x
  have hlt := Int.fract_lt_one x
  rw [abs_le]
  simp only [roundEven]
  split_ifs <;> push_cast <;> constructor <;> linarith

theorem roundEven_eq {x : ℚ} {n : ℤ} (h : |x - n| < 1 / 2) : roundEven x = n := by
  have hr := abs_roundEven_sub x
  rw [abs_le] at hr
  rw [abs_lt] at h
  have hlo : (n : ℚ) - 1 < roundEven x := by linarith
  have hhi : (roundEven x : ℚ) < n + 1 := by linarith
  have hlo' : n - 1 < roundEven x := by exact_mod_cast hlo
  have hhi' : roundEven x < n + 1 := by exact_mod_cast hhi
  omega

@[simp] theorem roundEven_intCast (n : ℤ) : roundEven (n : ℚ) = n :=
  roundEven_eq (by norm_num)

theorem roundEven_tie (n : ℤ) :
    roundEven ((n : ℚ) + 1 / 2) = if n % 2 = 0 then n else n + 1 := by
  have hfloor : ⌊(n : ℚ) + 1 / 2⌋ = n := by
    rw [Int.floor_eq_iff]
    constructor <;> linarith
  have hfract : Int.fract ((n : ℚ) + 1 / 2) = 1 / 2 := by
    rw [← Int.self_sub_floor, hfloor]
    ring
  simp only [roundEven, hfract, hfloor, lt_irrefl, if_false]

/-- Rounding does not cross an integer. -/
theorem le_roundEven {x : ℚ} {n : ℤ} (h : (n : ℚ) ≤ x) : n ≤ roundEven x := by
  have hr := abs_roundEven_sub x
  rw [abs_le] at hr
  have hlt : (n : ℚ) - 1 < roundEven x := by linarith
  have : n - 1 < roundEven x := by exact_mod_cast hlt
  omega

theorem roundEven_le {x : ℚ} {n : ℤ} (h : x ≤ n) : roundEven x ≤ n := by
  have hr := abs_roundEven_sub x
  rw [abs_le] at hr
  have hlt : (roundEven x : ℚ) < n + 1 := by linarith
  have : roundEven x < n + 1 := by exact_mod_cast hlt
  omega

theorem roundAway_of_nonneg {x : ℚ} (h : 0 ≤ x) : roundAway x = ⌊x + 1 / 2⌋ := by
  simp [roundAway, h]

theorem roundAway_eq_iff {x : ℚ} (h : 0 ≤ x) {n : ℤ} :
    roundAway x = n ↔ (n : ℚ) ≤ x + 1 / 2 ∧ x + 1 / 2 < n + 1 := by
  rw [roundAway_of_nonneg h, Int.floor_eq_iff]

theorem roundAway_nonneg {x : ℚ} (h : 0 ≤ x) : 0 ≤ roundAway x := by
  rw [roundAway_of_nonneg h]
  exact Int.floor_nonneg.mpr (by linarith)

@[simp] theorem roundAway_intCast (n : ℤ) : roundAway (n : ℚ) = n := by
  by_cases h : (0 : ℚ) ≤ n
  · rw [roundAway_eq_iff h]
    constructor <;> linarith
  · rw [roundAway, if_neg h, neg_eq_iff_eq_neg, Int.floor_eq_iff]
    push_cast
    constructor <;> linarith

/-! ## Formats -/

/-- Values have `precision` significant bits, are multiples of `2 ^ minExponent` and stay below
`2 ^ maxExponent`. -/
structure Format where
  precision : Nat
  precision_pos : 0 < precision
  minExponent : Int
  maxExponent : Int

variable (f : Format)

/-- Multiples of a power of two by an integer of `precision` bits. -/
def HasForm (x : ℚ) : Prop :=
  ∃ m e : ℤ, |m| < 2 ^ f.precision ∧ f.minExponent ≤ e ∧ x = m * 2 ^ e

/-- The exponent of the last significant bit. -/
def lastBit (x : ℚ) : ℤ := max (Int.log 2 |x| + 1 - f.precision) f.minExponent

/-- The nearest value when the exponents are not bounded above. -/
def nearest (x : ℚ) : ℚ := roundEven (x / 2 ^ lastBit f x) * 2 ^ lastBit f x

variable {f}

theorem nearest_zero : nearest f 0 = 0 := by
  simp only [nearest, zero_div]
  rw [← Int.cast_zero, roundEven_intCast]
  simp

theorem minExponent_le_lastBit (x : ℚ) : f.minExponent ≤ lastBit f x := le_max_right _ _

theorem lastBit_le {x : ℚ} {k : ℤ} (h0 : x ≠ 0) (hx : |x| < 2 ^ k)
    (hk : f.minExponent + f.precision ≤ k) : lastBit f x ≤ k - f.precision := by
  have hlog : Int.log 2 |x| < k :=
    (Int.lt_zpow_iff_log_lt (by decide) (abs_pos.mpr h0)).mp (by exact_mod_cast hx)
  apply max_le
  · omega
  · omega

theorem lastBit_eq {x : ℚ} {k : ℤ} (hlo : 2 ^ k ≤ x) (hhi : x < 2 ^ (k + 1))
    (hk : f.minExponent + f.precision ≤ k + 1) : lastBit f x = k + 1 - f.precision := by
  have hpos : 0 < x := lt_of_lt_of_le (by positivity) hlo
  have hlog : Int.log 2 |x| = k := by
    rw [abs_of_pos hpos]
    have h₁ : k ≤ Int.log 2 x :=
      (Int.zpow_le_iff_le_log (by decide) hpos).mp (by exact_mod_cast hlo)
    have h₂ : Int.log 2 x < k + 1 :=
      (Int.lt_zpow_iff_log_lt (by decide) hpos).mp (by exact_mod_cast hhi)
    omega
  rw [lastBit, hlog]
  apply max_eq_left
  omega

/-- A power of two is an integer multiple of every smaller one. -/
theorem two_zpow_split {e k : ℤ} (h : e ≤ k) :
    ∃ d : ℕ, (2 : ℚ) ^ k = ((2 ^ d : ℤ) : ℚ) * 2 ^ e := by
  obtain ⟨d, hd⟩ := Int.eq_ofNat_of_zero_le (sub_nonneg.mpr h)
  refine ⟨d, ?_⟩
  push_cast
  rw [← zpow_natCast, ← zpow_add₀ (by norm_num)]
  congr 1
  omega

/-- A multiple of the power that the last bit stands for is a value already. -/
theorem nearest_of_multiple {x : ℚ} {m e : ℤ} (hx : x = m * 2 ^ e) (he : lastBit f x ≤ e) :
    nearest f x = x := by
  obtain ⟨d, hsplit⟩ := two_zpow_split he
  have hquotient : x / 2 ^ lastBit f x = ((m * 2 ^ d : ℤ) : ℚ) := by
    rw [div_eq_iff (by positivity), Int.cast_mul, mul_assoc, ← hsplit]
    exact hx
  rw [nearest, hquotient, roundEven_intCast, ← hquotient]
  field_simp

theorem nearest_of_hasForm {x : ℚ} (h : HasForm f x) : nearest f x = x := by
  obtain ⟨m, e, hm, he, hx⟩ := h
  by_cases h0 : x = 0
  · rw [h0, nearest_zero]
  apply nearest_of_multiple hx
  have habs : |x| < 2 ^ (e + f.precision) := by
    have hm' : |(m : ℚ)| < 2 ^ f.precision := by exact_mod_cast hm
    rw [hx, abs_mul, abs_of_pos (by positivity : (0 : ℚ) < 2 ^ e), zpow_add₀ (by norm_num),
      zpow_natCast, mul_comm]
    gcongr
  have := lastBit_le (f := f) h0 habs (by omega)
  omega

/-- Powers of two are values. -/
theorem hasForm_two_zpow {k : ℤ} (hk : f.minExponent ≤ k) :
    HasForm f (2 ^ k) := by
  refine ⟨1, k, ?_, hk, by simp⟩
  rw [abs_one]
  exact one_lt_pow₀ (by norm_num) f.precision_pos.ne'

/-- The error of rounding is at most half of the last bit. -/
theorem abs_nearest_sub_le {x : ℚ} {k : ℤ} (hx : |x| ≤ 2 ^ k)
    (hk : f.minExponent + f.precision ≤ k) :
    |nearest f x - x| ≤ 2 ^ (k - f.precision) / 2 := by
  have hpos : (0 : ℚ) < 2 ^ (k - f.precision) := by positivity
  by_cases hform : HasForm f x
  · rw [nearest_of_hasForm hform, sub_self, abs_zero]
    positivity
  have h0 : x ≠ 0 := by
    rintro rfl
    exact hform ⟨0, f.minExponent, by simp, le_rfl, by simp⟩
  have hlt : |x| < 2 ^ k := by
    apply lt_of_le_of_ne hx
    intro he
    have hpower := hasForm_two_zpow (f := f) (k := k) (by omega)
    obtain ⟨m, e, hm, he', hx'⟩ := hpower
    rcases abs_choice x with habs | habs
    · exact hform ⟨m, e, hm, he', by rw [← habs, he, hx']⟩
    · have hneg : -x = m * 2 ^ e := by rw [← habs, he, hx']
      refine hform ⟨-m, e, by rwa [abs_neg], he', ?_⟩
      push_cast
      linarith
  have hlast : (2 : ℚ) ^ lastBit f x ≤ 2 ^ (k - f.precision) :=
    zpow_le_zpow_right₀ (by norm_num) (lastBit_le h0 hlt hk)
  have hunit : (0 : ℚ) < 2 ^ lastBit f x := by positivity
  have hround := abs_roundEven_sub (x / 2 ^ lastBit f x)
  have herror : nearest f x - x =
      ((roundEven (x / 2 ^ lastBit f x) : ℚ) - x / 2 ^ lastBit f x) * 2 ^ lastBit f x := by
    rw [nearest]
    field_simp
  rw [herror, abs_mul, abs_of_pos hunit]
  calc |(roundEven (x / 2 ^ lastBit f x) : ℚ) - x / 2 ^ lastBit f x| * 2 ^ lastBit f x
      ≤ 1 / 2 * 2 ^ (k - f.precision) := by gcongr
    _ = 2 ^ (k - f.precision) / 2 := by ring

/-- Between two powers of two the values are evenly spaced. -/
theorem nearest_binade {x : ℚ} {k : ℤ} (hlo : 2 ^ k ≤ x)
    (hhi : x ≤ 2 ^ (k + 1)) (hk : f.minExponent + f.precision ≤ k + 1) :
    nearest f x =
      roundEven (x / 2 ^ (k + 1 - f.precision)) * 2 ^ (k + 1 - (f.precision : ℤ)) := by
  rcases hhi.lt_or_eq with hlt | rfl
  · rw [nearest, lastBit_eq hlo hlt hk]
  · have hquotient : (2 : ℚ) ^ (k + 1) / 2 ^ (k + 1 - (f.precision : ℤ)) =
        ((2 ^ f.precision : ℤ) : ℚ) := by
      rw [← zpow_sub₀ (by norm_num)]
      push_cast
      rw [← zpow_natCast]
      congr 1
      omega
    rw [nearest_of_hasForm (hasForm_two_zpow (by omega)), hquotient, roundEven_intCast,
      ← hquotient]
    field_simp

/-- Rounding does not cross a power of two. -/
theorem nearest_le {x : ℚ} {k : ℤ} (h0 : 0 ≤ x) (hx : x ≤ 2 ^ k)
    (hk : f.minExponent + f.precision ≤ k) : nearest f x ≤ 2 ^ k := by
  rcases hx.lt_or_eq with hlt | rfl
  · rcases h0.eq_or_lt with rfl | hpos
    · rw [nearest_zero]
      positivity
    have hlast := lastBit_le (f := f) hpos.ne' (by rwa [abs_of_pos hpos]) hk
    have hprecision := f.precision_pos
    obtain ⟨d, hsplit⟩ := two_zpow_split (show lastBit f x ≤ k by omega)
    have hround : roundEven (x / 2 ^ lastBit f x) ≤ 2 ^ d := by
      apply roundEven_le
      rw [div_le_iff₀ (by positivity), ← hsplit]
      exact hx
    rw [nearest, hsplit]
    have hround' : (roundEven (x / 2 ^ lastBit f x) : ℚ) ≤ ((2 ^ d : ℤ) : ℚ) := by
      exact_mod_cast hround
    gcongr
  · rw [nearest_of_hasForm (hasForm_two_zpow (by omega))]

theorem le_nearest {x : ℚ} {k : ℤ} (hx : 2 ^ k ≤ x) (hk : f.minExponent ≤ k) :
    2 ^ k ≤ nearest f x := by
  have hpos : 0 < x := lt_of_lt_of_le (by positivity) hx
  have hlog : k ≤ Int.log 2 x :=
    (Int.zpow_le_iff_le_log (by decide) hpos).mp (by exact_mod_cast hx)
  have hlast : lastBit f x ≤ Int.log 2 x := by
    have := f.precision_pos
    rw [lastBit, abs_of_pos hpos]
    apply max_le
    · omega
    · omega
  obtain ⟨d, hsplit⟩ := two_zpow_split hlast
  have hself : (2 : ℚ) ^ Int.log 2 x ≤ x := by
    exact_mod_cast Int.zpow_log_le_self (b := 2) (by decide) hpos
  have hround : 2 ^ d ≤ roundEven (x / 2 ^ lastBit f x) := by
    apply le_roundEven
    rw [le_div_iff₀ (by positivity), ← hsplit]
    exact hself
  have hround' : ((2 ^ d : ℤ) : ℚ) ≤ (roundEven (x / 2 ^ lastBit f x) : ℚ) := by
    exact_mod_cast hround
  calc (2 : ℚ) ^ k ≤ 2 ^ Int.log 2 x := zpow_le_zpow_right₀ (by norm_num) hlog
    _ = ((2 ^ d : ℤ) : ℚ) * 2 ^ lastBit f x := hsplit
    _ ≤ nearest f x := by
      rw [nearest]
      gcongr

theorem nearest_nonneg {x : ℚ} (h : 0 ≤ x) : 0 ≤ nearest f x := by
  have hround : 0 ≤ roundEven (x / 2 ^ lastBit f x) := le_roundEven (by push_cast; positivity)
  have hround' : (0 : ℚ) ≤ roundEven (x / 2 ^ lastBit f x) := by exact_mod_cast hround
  rw [nearest]
  positivity

theorem abs_lt_lastBit (x : ℚ) : |x| < 2 ^ (lastBit f x + f.precision) := by
  have hlog : |x| < 2 ^ (Int.log 2 |x| + 1) := by
    exact_mod_cast Int.lt_zpow_succ_log_self (b := 2) (by decide) |x|
  apply lt_of_lt_of_le hlog
  apply zpow_le_zpow_right₀ (by norm_num)
  have : Int.log 2 |x| + 1 - f.precision ≤ lastBit f x := le_max_left _ _
  omega

/-- Rounding gives a value. -/
theorem hasForm_nearest (x : ℚ) : HasForm f (nearest f x) := by
  obtain ⟨p, hp⟩ := Nat.exists_eq_succ_of_ne_zero f.precision_pos.ne'
  have hquotient : |x / 2 ^ lastBit f x| ≤ ((2 ^ f.precision : ℤ) : ℚ) := by
    rw [abs_div, abs_of_pos (by positivity : (0 : ℚ) < 2 ^ lastBit f x),
      div_le_iff₀ (by positivity)]
    have hlt := abs_lt_lastBit (f := f) x
    rw [zpow_add₀ (by norm_num), zpow_natCast] at hlt
    push_cast
    linarith
  rw [abs_le] at hquotient
  have hhi : roundEven (x / 2 ^ lastBit f x) ≤ 2 ^ f.precision := roundEven_le hquotient.2
  have hlo : -2 ^ f.precision ≤ roundEven (x / 2 ^ lastBit f x) := by
    apply le_roundEven
    push_cast at hquotient ⊢
    exact hquotient.1
  have habs : |roundEven (x / 2 ^ lastBit f x)| ≤ 2 ^ f.precision := abs_le.mpr ⟨hlo, hhi⟩
  rcases habs.lt_or_eq with hlt | heq
  · exact ⟨_, _, hlt, minExponent_le_lastBit x, rfl⟩
  -- the significand has overflowed to the next power of two
  have hcarry : ∀ s : ℤ, |s| = 1 →
      HasForm f (((s * 2 ^ f.precision : ℤ) : ℚ) * 2 ^ lastBit f x) := by
    intro s hs
    refine ⟨s * 2 ^ p, lastBit f x + 1, ?_, ?_, ?_⟩
    · rw [abs_mul, hs, one_mul, abs_of_pos (by positivity), hp]
      exact pow_lt_pow_right₀ (by norm_num) (by omega)
    · have := minExponent_le_lastBit (f := f) x
      omega
    · rw [hp, Nat.succ_eq_add_one, zpow_add₀ (by norm_num)]
      push_cast
      ring
  rw [nearest]
  rcases abs_choice (roundEven (x / 2 ^ lastBit f x)) with hc | hc
  · rw [← hc, heq]
    simpa using hcarry 1 (by decide)
  · rw [← neg_eq_iff_eq_neg.mpr (hc.symm.trans heq).symm]
    simpa using hcarry (-1) (by decide)

/-- A value above a power of two is a multiple of what its last bit stands for. -/
theorem HasForm.multiple {x : ℚ} {k : ℤ} (h : HasForm f x) (hx : 2 ^ k ≤ x) :
    ∃ n : ℤ, x = n * 2 ^ (k + 1 - (f.precision : ℤ)) := by
  obtain ⟨m, e, hm, he, rfl⟩ := h
  have hexp : k < e + f.precision := by
    have hm' : (m : ℚ) < 2 ^ (f.precision : ℤ) := by
      rw [zpow_natCast]
      exact_mod_cast (abs_lt.mp hm).2
    have hlt : (2 : ℚ) ^ k < 2 ^ (e + f.precision) := by
      rw [add_comm, zpow_add₀ (by norm_num)]
      calc (2 : ℚ) ^ k ≤ m * 2 ^ e := hx
        _ < 2 ^ (f.precision : ℤ) * 2 ^ e := by gcongr
    exact (zpow_lt_zpow_iff_right₀ (by norm_num)).mp hlt
  obtain ⟨d, hsplit⟩ := two_zpow_split (show k + 1 - f.precision ≤ e by omega)
  refine ⟨m * 2 ^ d, ?_⟩
  rw [hsplit, Int.cast_mul, mul_assoc]

/-! ## Values and operations -/

variable (f)

structure Finite where
  value : ℚ
  form : HasForm f value
  bounded : |value| < 2 ^ f.maxExponent

inductive Value where
  | nan
  | infinite (negative : Bool)
  | finite (x : Finite f)

variable {f}

namespace Value

/-- The value of an exact result. -/
def ofRational (x : ℚ) : Value f :=
  if h : |nearest f x| < 2 ^ f.maxExponent then .finite ⟨nearest f x, hasForm_nearest x, h⟩
  else .infinite (decide (x < 0))

theorem ofRational_cases (x : ℚ) :
    (∃ y : Finite f, ofRational x = .finite y ∧ y.value = nearest f x) ∨
    (ofRational x : Value f) = .infinite (decide (x < 0)) ∧
      2 ^ f.maxExponent ≤ |nearest f x| := by
  simp only [ofRational]
  split
  · exact .inl ⟨_, rfl, rfl⟩
  · rename_i h
    exact .inr ⟨rfl, not_lt.mp h⟩

/-- Exact results that are small enough do not overflow. -/
theorem ofRational_of_le {x : ℚ} {k : ℤ} (h0 : 0 ≤ x) (hx : x ≤ 2 ^ k)
    (hk : f.minExponent + f.precision ≤ k) (hmax : k < f.maxExponent) :
    ∃ y : Finite f, ofRational x = .finite y ∧ y.value = nearest f x := by
  obtain h | ⟨-, hbig⟩ := ofRational_cases (f := f) x
  · exact h
  · have hle : (2 : ℚ) ^ f.maxExponent ≤ 2 ^ k := by
      rw [abs_of_nonneg (nearest_nonneg h0)] at hbig
      exact hbig.trans (nearest_le h0 hx hk)
    have := (zpow_le_zpow_iff_right₀ (by norm_num)).mp hle
    omega

/-- The comparison of two values, which is false for what is no number. -/
def less : Value f → Value f → Bool
  | .finite x, .finite y => x.value < y.value
  | .finite _, .infinite negative => !negative
  | .infinite negative, .finite _ => negative
  | .infinite negative, .infinite negative' => negative && !negative'
  | .nan, _ | _, .nan => false

end Value

def Finite.mul (x y : Finite f) : Value f := .ofRational (x.value * y.value)

def Finite.div (x y : Finite f) : Value f := .ofRational (x.value / y.value)

end FloatingPoint
