import AgentRuntime.Core.Quantity

/-!
# Quantities there and back

A quantity is sent as the floating point quotient by 10000 and multiplied by
10000 on arrival. Three roundings lie between the quantity and the integer
that comes out: of the integer, of the quotient and of the product.
-/
namespace AgentRuntime

open FloatingPoint

namespace ResourceQuantity

/-- The product that `FromDouble` computes from what `ToDouble` gives for an integer. -/
def rescaled (v : ℤ) : ℚ :=
  nearest binary64 (nearest binary64 (nearest binary64 v / 10000) * 10000)

/-- An integer of 53 bits whose multiples by powers of two come back. Below `10000 * 2 ^ 39` the
quotient is close enough; above, the remainder decides on which side the product falls. -/
def ExactSignificand (m : ℤ) : Prop :=
  m < 5497558138880000 ∨ |Int.bmod (512 * m) 625| < 256 ∨
    |Int.bmod (512 * m) 625| = 256 ∧ m % 2 = 0

/-- The quantities that come back: all below `10000 * 2 ^ 38`, those below `2 ^ 52` whose quotient
is not rounded up too far, and above that only integers of 53 significant bits. -/
def ExactOnWire (v : ℤ) : Prop :=
  v < 2748779069440000 ∨ (v < 2 ^ 52 ∧ -256 ≤ Int.bmod (1024 * v) 625) ∨
    ∃ (m : ℤ) (k : ℕ), v = m * 2 ^ k ∧ 2 ^ 52 ≤ m ∧ m < 2 ^ 53 ∧ ExactSignificand m

/-! ## The three roundings -/

/-- Integers of 53 bits, and their multiples by powers of two, are exact. -/
theorem nearest_significand {m : ℤ} (hm : |m| < 2 ^ 53) (k : ℕ) :
    nearest binary64 ((m : ℚ) * 2 ^ k) = m * 2 ^ k :=
  nearest_of_hasForm ⟨m, k, hm, by simp, by rw [zpow_natCast]⟩

theorem nearest_integer {v : ℤ} (h0 : 0 ≤ v) (hv : v < 2 ^ 53) :
    nearest binary64 (v : ℚ) = v := by
  simpa using nearest_significand (m := v) (abs_lt.mpr ⟨by omega, hv⟩) 0

theorem two_zpow_add (g : ℤ) (k : ℕ) : (2 : ℚ) ^ (g + k) = 2 ^ g * 2 ^ k := by
  rw [zpow_add₀ (by norm_num), zpow_natCast]

/-- The spacing of the values from `2 ^ (52 + k)` on. -/
theorem spacing_eq (k : ℕ) : (2 : ℚ) ^ (52 + (k : ℤ) + 1 - (53 : ℕ)) = 2 ^ k := by
  rw [← zpow_natCast]
  congr 1
  push_cast
  ring

theorem rescaled_small {v : ℤ} (h0 : 0 ≤ v) (hv : v < 2748779069440000) :
    roundAway (rescaled v) = v := by
  have h0' : (0 : ℚ) ≤ v := by exact_mod_cast h0
  have hv' : (v : ℚ) < 2748779069440000 := by exact_mod_cast hv
  have hexact := nearest_integer (v := v) (by omega) (by omega)
  have hquotient := abs_nearest_sub_le (f := binary64) (x := (v : ℚ) / 10000) (k := 38)
    (by rw [abs_of_nonneg (by positivity)]; norm_num; linarith) (by decide)
  have hpos := nearest_nonneg (f := binary64) (x := (v : ℚ) / 10000) (by positivity)
  norm_num at hquotient
  rw [abs_le] at hquotient
  have hproduct := abs_nearest_sub_le (f := binary64)
    (x := nearest binary64 ((v : ℚ) / 10000) * 10000) (k := 52)
    (by rw [abs_of_nonneg (by positivity)]; norm_num; linarith) (by decide)
  have hpos' := nearest_nonneg (f := binary64)
    (x := nearest binary64 ((v : ℚ) / 10000) * 10000) (by positivity)
  norm_num at hproduct
  rw [abs_le] at hproduct
  rw [rescaled, hexact, roundAway_eq_iff hpos']
  constructor <;> linarith

/-- Where an integer less a remainder over 512 is rounded to. -/
theorem roundEven_remainder (m : ℤ) {c : ℤ} (h : |c| ≤ 312) :
    roundEven ((m : ℚ) - c / 512) =
      if c < -256 ∨ c = -256 ∧ m % 2 = 1 then m + 1
      else if 256 < c ∨ c = 256 ∧ m % 2 = 1 then m - 1 else m := by
  rw [abs_le] at h
  have hlo : (-312 : ℚ) ≤ c := by exact_mod_cast h.1
  have hhi : (c : ℚ) ≤ 312 := by exact_mod_cast h.2
  by_cases hup : c < -256
  · have hup' : (c : ℚ) < -256 := by exact_mod_cast hup
    rw [if_pos (.inl hup)]
    apply roundEven_eq
    push_cast
    rw [abs_lt]
    constructor <;> linarith
  by_cases hdown : 256 < c
  · have hdown' : (256 : ℚ) < c := by exact_mod_cast hdown
    rw [if_neg (by omega), if_pos (.inl hdown)]
    apply roundEven_eq
    push_cast
    rw [abs_lt]
    constructor <;> linarith
  by_cases htie : c = -256
  · have hmid : (m : ℚ) - c / 512 = m + 1 / 2 := by
      rw [htie]
      push_cast
      ring
    rw [hmid, roundEven_tie]
    split_ifs <;> omega
  by_cases htie' : c = 256
  · have hmid : (m : ℚ) - c / 512 = ((m - 1 : ℤ) : ℚ) + 1 / 2 := by
      rw [htie']
      push_cast
      ring
    rw [hmid, roundEven_tie]
    split_ifs <;> omega
  · have hlo' : (-256 : ℚ) < c := by
      have : -256 < c := by omega
      exact_mod_cast this
    have hhi' : (c : ℚ) < 256 := by
      have : c < 256 := by omega
      exact_mod_cast this
    rw [if_neg (by omega), if_neg (by omega)]
    apply roundEven_eq
    rw [abs_lt]
    constructor <;> linarith

theorem roundEven_remainder_iff {m c : ℤ} (h : |c| ≤ 312) :
    roundEven ((m : ℚ) - c / 512) = m ↔ |c| < 256 ∨ |c| = 256 ∧ m % 2 = 0 := by
  rw [roundEven_remainder m h]
  rcases abs_cases c with ⟨habs, hsign⟩ | ⟨habs, hsign⟩
  · rw [habs]
    split_ifs <;> omega
  · rw [habs]
    split_ifs <;> omega

theorem abs_bmod_le (v : ℤ) : |Int.bmod v 625| ≤ 312 := by
  have hlo := Int.le_bmod (x := v) (m := 625) (by decide)
  have hhi := Int.bmod_lt (x := v) (m := 625) (by decide)
  rw [abs_le]
  constructor <;> omega

theorem bmod_bounds (v : ℤ) : (-312 : ℚ) ≤ Int.bmod v 625 ∧ (Int.bmod v 625 : ℚ) ≤ 312 := by
  obtain ⟨hlo, hhi⟩ := abs_le.mp (abs_bmod_le v)
  exact ⟨by exact_mod_cast hlo, by exact_mod_cast hhi⟩

/-- The rounded quotient by 10000, multiplied by 10000 without rounding. The power `2 ^ e` is the
one below the quotient of the significand. -/
theorem quotient_times {m : ℤ} (k : ℕ) {e a : ℤ} (ha : (a : ℚ) * 10000 = 625 * 2 ^ (52 - e))
    (he : 0 ≤ e) (hlo : 2 ^ e ≤ (m : ℚ) / 10000) (hhi : (m : ℚ) / 10000 ≤ 2 ^ (e + 1)) :
    nearest binary64 ((m : ℚ) * 2 ^ k / 10000) * 10000 =
      ((m : ℚ) - Int.bmod (a * m) 625 / a) * 2 ^ k := by
  have hk : (0 : ℚ) < 2 ^ k := by positivity
  have hspacing : (2 : ℚ) ^ (52 - e) = 16 * a := by linarith
  have hapos : (a : ℚ) ≠ 0 := by
    intro h
    have : (0 : ℚ) < 2 ^ (52 - e) := by positivity
    rw [hspacing, h] at this
    norm_num at this
  have hunit : (2 : ℚ) ^ (e + k + 1 - (53 : ℤ)) = 2 ^ k / (16 * a) := by
    rw [← hspacing, ← zpow_natCast, ← zpow_sub₀ (by norm_num)]
    congr 1
    ring
  have hdivision : (Int.bmod (a * m) 625 : ℚ) + 625 * Int.bdiv (a * m) 625 = a * m := by
    exact_mod_cast Int.bmod_add_bdiv (a * m) 625
  have hquotient : (m : ℚ) * 2 ^ k / 10000 / (2 ^ k / (16 * a)) = a * m / 625 := by
    field_simp
    ring
  have hround : roundEven ((a : ℚ) * m / 625) = Int.bdiv (a * m) 625 := by
    obtain ⟨hlo', hhi'⟩ := bmod_bounds (a * m)
    apply roundEven_eq
    rw [abs_lt]
    constructor <;> linarith
  have hbinade := nearest_binade (f := binary64) (x := (m : ℚ) * 2 ^ k / 10000) (k := e + k)
    (by rw [two_zpow_add, mul_div_right_comm]; gcongr)
    (by rw [add_right_comm, two_zpow_add, mul_div_right_comm]; gcongr)
    (by change (-1074 : ℤ) + 53 ≤ e + k + 1; omega)
  simp only [Nat.cast_ofNat] at hbinade
  rw [hbinade, hunit, hquotient, hround]
  have hbdiv : (Int.bdiv (a * m) 625 : ℚ) = (a * m - Int.bmod (a * m) 625) / 625 := by linarith
  rw [hbdiv]
  field_simp
  ring

theorem roundAway_half {n : ℤ} (h : 0 ≤ n) :
    roundAway ((n : ℚ) * 2 ^ (51 + 1 - (53 : ℤ))) = (n + 1) / 2 := by
  have h' : (0 : ℚ) ≤ n := by exact_mod_cast h
  have hlo : 2 * ((n + 1) / 2) ≤ n + 1 := by omega
  have hhi : n + 1 < 2 * ((n + 1) / 2) + 2 := by omega
  have hlo' : (2 : ℚ) * ((n + 1) / 2 : ℤ) ≤ n + 1 := by exact_mod_cast hlo
  have hhi' : (n : ℚ) + 1 < 2 * ((n + 1) / 2 : ℤ) + 2 := by exact_mod_cast hhi
  rw [roundAway_eq_iff (by positivity)]
  norm_num at hlo' hhi' ⊢
  constructor <;> linarith

/-- Between `10000 * 2 ^ 38` and `2 ^ 52` a product that comes out half a unit too large is
rounded up, and one that comes out half a unit too small is not rounded down. -/
theorem rescaled_middle {v : ℤ} (hlo : 2748779069440000 ≤ v) (hhi : v < 2 ^ 52) :
    roundAway (rescaled v) = v ↔ -256 ≤ Int.bmod (1024 * v) 625 := by
  have hlo' : (2748779069440000 : ℚ) ≤ v := by exact_mod_cast hlo
  have hhi' : (v : ℚ) ≤ 2 ^ 52 - 1 := by exact_mod_cast Int.le_sub_one_of_lt hhi
  have hexact := nearest_integer (v := v) (by omega) (by omega)
  have hproduct := quotient_times (m := v) 0 (e := 38) (a := 1024) (by norm_num) (by decide)
    (by norm_num; linarith) (by norm_num at hhi' ⊢; linarith)
  obtain ⟨hclo, hchi⟩ := bmod_bounds (1024 * v)
  simp only [pow_zero, mul_one] at hproduct
  push_cast at hproduct
  rw [rescaled, hexact, hproduct, nearest_binade (k := 51) (by norm_num; linarith)
    (by norm_num at hhi' ⊢; linarith) (by decide)]
  have hhalf : ((v : ℚ) - Int.bmod (1024 * v) 625 / 1024) / 2 ^ (51 + 1 - (53 : ℤ)) =
      ((2 * v : ℤ) : ℚ) - Int.bmod (1024 * v) 625 / 512 := by
    norm_num
    ring
  simp only [Nat.cast_ofNat]
  rw [hhalf, roundEven_remainder (2 * v) (abs_bmod_le _), roundAway_half]
  · split_ifs <;> omega
  · split_ifs <;> omega

theorem nearest_scaled {t : ℚ} (k : ℕ) (hlo : 2 ^ 52 ≤ t) (hhi : t ≤ 2 ^ 53) :
    nearest binary64 (t * 2 ^ k) = roundEven t * 2 ^ k := by
  have hbinade := nearest_binade (f := binary64) (x := t * 2 ^ k) (k := 52 + k)
    (by rw [two_zpow_add]; gcongr; exact_mod_cast hlo)
    (by rw [add_right_comm, two_zpow_add]; gcongr; exact_mod_cast hhi)
    (by change (-1074 : ℤ) + 53 ≤ 52 + k + 1; omega)
  rw [hbinade, spacing_eq]
  congr 3
  field_simp

theorem roundAway_scaled (n : ℤ) (k : ℕ) : roundAway ((n : ℚ) * 2 ^ k) = n * 2 ^ k := by
  have hinteger : (n : ℚ) * 2 ^ k = ((n * 2 ^ k : ℤ) : ℚ) := by push_cast; rfl
  rw [hinteger, roundAway_intCast]

/-- With 53 significant bits the product is an integer before the last rounding. -/
theorem rescaled_large {m : ℤ} (k : ℕ) (hlo : 2 ^ 52 ≤ m) (hhi : m < 2 ^ 53) :
    roundAway (rescaled (m * 2 ^ k)) = m * 2 ^ k ↔ ExactSignificand m := by
  have hlo' : (2 ^ 52 : ℚ) ≤ m := by exact_mod_cast hlo
  have hhi' : (m : ℚ) ≤ 2 ^ 53 - 1 := by exact_mod_cast Int.le_sub_one_of_lt hhi
  have hexact : nearest binary64 ((m * 2 ^ k : ℤ) : ℚ) = (m : ℚ) * 2 ^ k := by
    push_cast
    exact nearest_significand (abs_lt.mpr ⟨by omega, hhi⟩) k
  rw [rescaled, hexact]
  by_cases hsmall : m < 5497558138880000
  · have hsmall' : (m : ℚ) < 5497558138880000 := by exact_mod_cast hsmall
    have hproduct := quotient_times (m := m) k (e := 38) (a := 1024) (by norm_num) (by decide)
      (by norm_num at hlo' ⊢; linarith) (by norm_num; linarith)
    obtain ⟨hclo, hchi⟩ := bmod_bounds (1024 * m)
    push_cast at hproduct
    rw [hproduct, nearest_scaled k ?lower ?upper, roundEven_eq (n := m), roundAway_scaled]
    case lower =>
      rcases hlo.eq_or_lt with rfl | hlt
      · have hzero : Int.bmod (1024 * 2 ^ 52) 625 ≤ 0 := by decide
        have : (Int.bmod (1024 * 2 ^ 52) 625 : ℚ) ≤ 0 := by exact_mod_cast hzero
        push_cast
        linarith
      · have : (2 ^ 52 + 1 : ℚ) ≤ m := by exact_mod_cast hlt
        linarith
    case upper => linarith
    · exact ⟨fun _ => .inl hsmall, fun _ => rfl⟩
    · rw [abs_lt]
      constructor <;> linarith
  · have hlarge' : (5497558138880000 : ℚ) ≤ m := by exact_mod_cast not_lt.mp hsmall
    have hproduct := quotient_times (m := m) k (e := 39) (a := 512) (by norm_num) (by decide)
      (by norm_num; linarith) (by norm_num at hhi' ⊢; linarith)
    obtain ⟨hclo, hchi⟩ := bmod_bounds (512 * m)
    push_cast at hproduct
    rw [hproduct, nearest_scaled k (by norm_num; linarith) (by linarith), roundAway_scaled,
      mul_left_inj' (by positivity : (2 : ℤ) ^ k ≠ 0), roundEven_remainder_iff (abs_bmod_le _)]
    simp [ExactSignificand, hsmall]

theorem rescaled_nonneg {v : ℤ} (h0 : 0 ≤ v) : 0 ≤ rescaled v := by
  have h0' : (0 : ℚ) ≤ v := by exact_mod_cast h0
  have hv := nearest_nonneg (f := binary64) h0'
  have hquotient := nearest_nonneg (f := binary64) (div_nonneg hv (by norm_num : (0 : ℚ) ≤ 10000))
  exact nearest_nonneg (mul_nonneg hquotient (by norm_num))

/-- A large integer that is a value has 53 significant bits. -/
theorem exists_significand {v : ℤ} (hv : 2 ^ 52 ≤ v) (hform : HasForm binary64 (v : ℚ)) :
    ∃ (m : ℤ) (k : ℕ), v = m * 2 ^ k ∧ 2 ^ 52 ≤ m ∧ m < 2 ^ 53 := by
  obtain ⟨n, rfl⟩ := Int.eq_ofNat_of_zero_le (a := v) (by omega)
  have hn : 2 ^ 52 ≤ n := by exact_mod_cast hv
  have hlog := Nat.pow_log_le_self 2 (x := n) (by omega)
  have hlog' := Nat.lt_pow_succ_log_self (b := 2) (by decide) n
  have hbits : 52 ≤ Nat.log 2 n := (Nat.le_log_iff_pow_le (by decide) (by omega)).mpr hn
  obtain ⟨k, hk⟩ := Nat.exists_eq_add_of_le hbits
  rw [hk] at hlog hlog'
  obtain ⟨m, hm⟩ := hform.multiple (k := 52 + k) (by exact_mod_cast hlog)
  rw [spacing_eq] at hm
  have hm' : (n : ℤ) = m * 2 ^ k := by exact_mod_cast hm
  have hpos : (0 : ℤ) < 2 ^ k := by positivity
  refine ⟨m, k, hm', ?_, ?_⟩
  · have hle : (2 ^ 52 : ℤ) * 2 ^ k ≤ m * 2 ^ k := by
      rw [← hm', ← pow_add]
      exact_mod_cast hlog
    exact le_of_mul_le_mul_right hle hpos
  · have hlt : m * 2 ^ k < (2 ^ 53 : ℤ) * 2 ^ k := by
      rw [← hm', ← pow_add]
      have : 53 + k = (52 + k).succ := by omega
      rw [this]
      exact_mod_cast hlog'
    exact lt_of_mul_lt_mul_right hlt hpos.le

/-- A large integer that comes back is itself a value. -/
theorem hasForm_of_rescaled {v : ℤ} (hv : 2 ^ 53 ≤ v) (h : roundAway (rescaled v) = v) :
    HasForm binary64 (v : ℚ) := by
  have hform : HasForm binary64 (rescaled v) := hasForm_nearest _
  have hnonneg := rescaled_nonneg (v := v) (by omega)
  by_cases hlarge : 2 ^ (53 : ℤ) ≤ rescaled v
  · obtain ⟨n, hn⟩ := hform.multiple hlarge
    have hinteger : rescaled v = ((n * 2 ^ 1 : ℤ) : ℚ) := by
      rw [hn]
      norm_num
    rw [hinteger, roundAway_intCast] at h
    rwa [hinteger, h] at hform
  · have hlt : rescaled v < 2 ^ 53 := by exact_mod_cast not_le.mp hlarge
    have hle := ((roundAway_eq_iff hnonneg).mp h).1
    have hv' : (2 ^ 53 : ℚ) ≤ v := by exact_mod_cast hv
    have hlt' : (v : ℚ) < ((2 ^ 53 + 1 : ℤ) : ℚ) := by
      push_cast
      linarith
    have hlt'' : v < 2 ^ 53 + 1 := by exact_mod_cast hlt'
    obtain rfl : v = 2 ^ 53 := by omega
    push_cast
    exact hasForm_two_zpow (f := binary64) (k := 53) (by decide)

/-- The three roundings together give the integer back exactly in the listed cases. -/
theorem rescaled_iff {v : ℤ} (h0 : 0 ≤ v) : roundAway (rescaled v) = v ↔ ExactOnWire v := by
  constructor
  · intro h
    by_cases hsmall : v < 2748779069440000
    · exact .inl hsmall
    by_cases hmiddle : v < 2 ^ 52
    · exact .inr (.inl ⟨hmiddle, (rescaled_middle (not_lt.mp hsmall) hmiddle).mp h⟩)
    have hsignificand : ∃ (m : ℤ) (k : ℕ), v = m * 2 ^ k ∧ 2 ^ 52 ≤ m ∧ m < 2 ^ 53 := by
      by_cases hshort : v < 2 ^ 53
      · exact ⟨v, 0, by simp, not_lt.mp hmiddle, hshort⟩
      · exact exists_significand (not_lt.mp hmiddle) (hasForm_of_rescaled (not_lt.mp hshort) h)
    obtain ⟨m, k, rfl, hlo, hhi⟩ := hsignificand
    exact .inr (.inr ⟨m, k, rfl, hlo, hhi, (rescaled_large k hlo hhi).mp h⟩)
  · rintro (hsmall | ⟨hmiddle, hbmod⟩ | ⟨m, k, rfl, hlo, hhi, hexact⟩)
    · exact rescaled_small h0 hsmall
    · by_cases hsmall : v < 2748779069440000
      · exact rescaled_small h0 hsmall
      · exact (rescaled_middle (not_lt.mp hsmall) hmiddle).mpr hbmod
    · exact (rescaled_large k hlo hhi).mpr hexact

/-! ## The conversions -/

/-- `ToDouble` of a quantity that is not negative, and its product with 10000. -/
theorem toDouble_finite {q : ResourceQuantity} (h0 : 0 ≤ q.value) :
    ∃ x y : Finite binary64, q.toDouble = .finite x ∧ 0 ≤ x.value ∧
      x.mul kScaleDouble = .finite y ∧ y.value = rescaled q.value := by
  have h0' : (0 : ℚ) ≤ q.value := by exact_mod_cast h0
  have hmax : (q.value : ℚ) ≤ 2 ^ (63 : ℤ) := by
    have hfits := q.fits.2
    simp only [int64Max] at hfits
    have : (q.value : ℚ) ≤ (9223372036854775807 : ℤ) := by exact_mod_cast hfits
    norm_num at this ⊢
    linarith
  obtain ⟨d, hd, hdvalue⟩ := Value.ofRational_of_le (f := binary64) (k := 63) h0' hmax
    (by decide) (by decide)
  have hd0 : 0 ≤ d.value := by
    rw [hdvalue]
    exact nearest_nonneg h0'
  have hdmax : d.value ≤ 2 ^ (63 : ℤ) := by
    rw [hdvalue]
    exact nearest_le h0' hmax (by decide)
  have hscale : kScaleDouble.value = 10000 := by norm_num [kScaleDouble, kScale]
  obtain ⟨x, hx, hxvalue⟩ := Value.ofRational_of_le (f := binary64) (k := 63)
    (x := d.value / kScaleDouble.value) (by rw [hscale]; positivity)
    (by rw [hscale]; linarith) (by decide) (by decide)
  have hx0 : 0 ≤ x.value := by
    rw [hxvalue]
    exact nearest_nonneg (by rw [hscale]; positivity)
  have hxmax : x.value ≤ 2 ^ (63 : ℤ) := by
    rw [hxvalue]
    exact nearest_le (by rw [hscale]; positivity) (by rw [hscale]; linarith) (by decide)
  obtain ⟨y, hy, hyvalue⟩ := Value.ofRational_of_le (f := binary64) (k := 77)
    (x := x.value * kScaleDouble.value) (by rw [hscale]; positivity)
    (by rw [hscale]; norm_num at hxmax ⊢; linarith) (by decide) (by decide)
  refine ⟨x, y, ?_, hx0, hy, ?_⟩
  · exact (toDouble_of_finite hd).trans hx
  · rw [hyvalue, hxvalue, hdvalue, hscale, rescaled]

/-- A positive quantity comes back, whatever `llround` gives out of range, exactly in the listed
cases. -/
theorem fromDouble_toDouble_iff {q : ResourceQuantity} (hq : 0 < q.value) :
    (∀ unspecified, fromDouble unspecified q.toDouble = some q) ↔ ExactOnWire q.value := by
  obtain ⟨x, y, hx, hx0, hy, hvalue⟩ := toDouble_finite hq.le
  have hnonneg := rescaled_nonneg hq.le
  rw [← rescaled_iff hq.le, ← hvalue, hx]
  simp only [fromDouble_scaled _ hx0 hy]
  constructor
  · intro h
    by_cases hfits : FitsInt64 (roundAway y.value)
    · have hzero := h fun _ => zero
      split at hzero
      · rw [← llround_fits (fun _ => zero) hfits, Option.some.inj hzero]
      · cases hzero
    · have hzero := h fun _ => zero
      simp only [llround, dif_neg hfits] at hzero
      split at hzero
      · rw [← Option.some.inj hzero] at hq
        cases hq
      · cases hzero
  · intro h unspecified
    have hle : y.value ≤ 2 ^ 63 := by
      have hround := ((roundAway_eq_iff (hvalue ▸ hnonneg)).mp h).2
      have hmax : (q.value : ℚ) ≤ (9223372036854775807 : ℤ) := by exact_mod_cast q.fits.2
      norm_num at hmax ⊢
      linarith
    rw [if_pos hle]
    have hfits : FitsInt64 (roundAway y.value) := by
      rw [h]
      exact q.fits
    exact congrArg some (ext ((llround_fits unspecified hfits).trans h))

end ResourceQuantity

end AgentRuntime
