import Mathlib.Data.Int.Basic

/-!
# Signed 64-bit arithmetic

Values of `std::int64_t` are integers in the 64-bit range. Arithmetic that
leaves the range is reduced to two's complement; the statements that matter
show that it does not leave it.
-/
namespace AgentRuntime

def int64Min : Int := -9223372036854775808
def int64Max : Int := 9223372036854775807

def FitsInt64 (v : Int) : Prop := int64Min ≤ v ∧ v ≤ int64Max

instance (v : Int) : Decidable (FitsInt64 v) := inferInstanceAs (Decidable (_ ∧ _))

def wrap64 (v : Int) : Int := v.bmod 18446744073709551616

theorem fitsInt64_wrap64 (v : Int) : FitsInt64 (wrap64 v) := by
  have hlo := Int.le_bmod (x := v) (m := 18446744073709551616) (by decide)
  have hhi := Int.bmod_lt (x := v) (m := 18446744073709551616) (by decide)
  constructor
  · simp only [int64Min, wrap64]
    omega
  · simp only [int64Max, wrap64]
    omega

theorem wrap64_of_fits {v : Int} (h : FitsInt64 v) : wrap64 v = v := by
  obtain ⟨hlo, hhi⟩ := h
  simp only [int64Min, int64Max] at hlo hhi
  simp only [wrap64, Int.bmod]
  split <;> omega

end AgentRuntime
