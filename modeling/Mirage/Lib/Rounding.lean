import Mathlib.Algebra.Order.Floor.Semifield
import Mathlib.Algebra.Order.Ring.Nat
import Mathlib.Data.Nat.Log
import Mathlib.Data.Rat.Floor
import Mathlib.Tactic.Ring

/-!
Natural numbers rounded to a number of leading binary digits, to nearest with
ties to even, as a conversion from an integer to a floating point number does,
and numbers cast to an unsigned integer type, towards zero and within the type.
-/

namespace Mirage.Rounding

section Mantissa

/-- How many low digits do not fit. -/
def excess (digits n : Nat) : Nat := n.log2 + 1 - digits

def roundUp (digits n : Nat) : Bool :=
  let s := excess digits n
  decide (2 ^ s < 2 * (n % 2 ^ s) ∨ 2 * (n % 2 ^ s) = 2 ^ s ∧ n / 2 ^ s % 2 = 1)

def round (digits n : Nat) : Nat :=
  let s := excess digits n
  (n / 2 ^ s + (roundUp digits n).toNat) * 2 ^ s

variable {digits n : Nat}

theorem round_of_dvd (fits : 2 ^ excess digits n ∣ n) : round digits n = n := by
  have exact : n % 2 ^ excess digits n = 0 := Nat.mod_eq_zero_of_dvd fits
  have down : roundUp digits n = false := by
    have positive := Nat.two_pow_pos (excess digits n)
    simp only [roundUp, exact, decide_eq_false_iff_not]
    omega
  simp only [round, down, Bool.toNat_false, Nat.add_zero]
  exact Nat.div_mul_cancel fits

/-- What has at most `digits` leading digits stays as it is. -/
theorem round_mul_pow {lead s : Nat} (holds : 0 < digits) (short : lead ≤ 2 ^ digits) :
    round digits (lead * 2 ^ s) = lead * 2 ^ s := by
  apply round_of_dvd
  rcases Nat.eq_zero_or_pos lead with rfl | positive
  · simp only [Nat.zero_mul, Nat.dvd_zero]
  rcases Nat.lt_or_eq_of_le short with less | rfl
  · have nonzero : lead * 2 ^ s ≠ 0 := (Nat.mul_pos positive (Nat.two_pow_pos s)).ne'
    have below : lead * 2 ^ s < 2 ^ (digits + s) := by
      rw [Nat.pow_add]
      exact Nat.mul_lt_mul_of_pos_right less (Nat.two_pow_pos s)
    have length := (Nat.log2_lt nonzero).mpr below
    have least : excess digits (lead * 2 ^ s) ≤ s := by
      unfold excess
      omega
    exact (Nat.pow_dvd_pow 2 least).mul_left lead
  · rw [← Nat.pow_add, excess, Nat.log2_two_pow]
    exact Nat.pow_dvd_pow 2 (by omega)

theorem lead_lt (digits n : Nat) : n / 2 ^ excess digits n < 2 ^ digits := by
  rw [Nat.div_lt_iff_lt_mul (Nat.two_pow_pos _), ← Nat.pow_add]
  exact Nat.lt_log2_self.trans_le (Nat.pow_le_pow_right Nat.two_pos (by unfold excess; omega))

theorem lead_le (digits n : Nat) :
    n / 2 ^ excess digits n + (roundUp digits n).toNat ≤ 2 ^ digits :=
  (Nat.add_le_add_left (Bool.toNat_le _) _).trans (lead_lt digits n)

theorem round_round (holds : 0 < digits) : round digits (round digits n) = round digits n :=
  round_mul_pow holds (lead_le digits n)

theorem round_le {width : Nat} (holds : 0 < digits) (wide : digits ≤ width) (below : n < 2 ^ width) :
    round digits n ≤ 2 ^ width := by
  have least : excess digits n ≤ width - digits := by
    unfold excess
    rcases Nat.eq_zero_or_pos n with rfl | positive
    · rw [Nat.log2_zero]
      omega
    · have length := (Nat.log2_lt positive.ne').mpr below
      omega
  calc round digits n
      ≤ 2 ^ digits * 2 ^ excess digits n := Nat.mul_le_mul_right _ (lead_le digits n)
    _ ≤ 2 ^ digits * 2 ^ (width - digits) :=
        Nat.mul_le_mul_left _ (Nat.pow_le_pow_right Nat.two_pos least)
    _ = 2 ^ width := by rw [← Nat.pow_add, Nat.add_sub_cancel' wide]

theorem round_pos (holds : 0 < digits) (positive : 0 < n) : 0 < round digits n := by
  have reached : 2 ^ excess digits n ≤ n :=
    (Nat.pow_le_pow_right Nat.two_pos (by unfold excess; omega)).trans
      (Nat.log2_self_le positive.ne')
  have lead := Nat.div_pos reached (Nat.two_pow_pos _)
  exact Nat.mul_pos (Nat.add_pos_left lead _) (Nat.two_pow_pos _)

end Mantissa

section Truncation

variable {n bound : Nat} {x : ℚ}

def truncate (bound : Nat) (x : ℚ) : Nat := min ⌊x⌋₊ bound

theorem truncate_le (nonneg : 0 ≤ x) : (truncate bound x : ℚ) ≤ x :=
  (Nat.cast_le.mpr (Nat.min_le_left _ _)).trans (Nat.floor_le nonneg)

theorem le_truncate (below : (n : ℚ) ≤ x) (within : n ≤ bound) : n ≤ truncate bound x :=
  le_min (Nat.le_floor below) within

theorem truncate_div (bound m n : Nat) : truncate bound ((m : ℚ) / n) = min (m / n) bound := by
  rw [truncate, Nat.floor_div_eq_div]

end Truncation

end Mirage.Rounding
