import DeskCalculator.Numeric.Rounding
import Mathlib.Tactic

/-!
# Quotients, powers and the nearest integer

The integer steps of `Rounding` read as statements about rational numbers.  A power with an integer
exponent is a quotient of two natural powers, so the tests on products compare a quotient with a
power.
-/

namespace DeskCalculator

theorem zpow_eq_div {base : ℚ} (nonzero : base ≠ 0) (exponent : ℤ) :
    base ^ exponent = base ^ exponent.toNat / base ^ (-exponent).toNat := by
  rw [← zpow_natCast, ← zpow_natCast, ← zpow_sub₀ nonzero]
  congr 1
  omega

theorem cast_twoPow (exponent : Nat) : (twoPow exponent : ℚ) = 2 ^ exponent := by
  rw [twoPow, Nat.pow_eq, Nat.cast_pow, Nat.cast_ofNat]

theorem cast_fivePow (exponent : Nat) : (fivePow exponent : ℚ) = 5 ^ exponent := by
  rw [fivePow, Nat.pow_eq, Nat.cast_pow, Nat.cast_ofNat]

theorem tenPow_eq_pow (exponent : Nat) : tenPow exponent = 10 ^ exponent := rfl

theorem cast_tenPow (exponent : Nat) : (tenPow exponent : ℚ) = 10 ^ exponent := by
  rw [tenPow_eq_pow, Nat.cast_pow, Nat.cast_ofNat]

theorem twoPow_toNat_div (exponent : ℤ) :
    (twoPow exponent.toNat : ℚ) / twoPow (-exponent).toNat = 2 ^ exponent := by
  rw [cast_twoPow, cast_twoPow, zpow_eq_div two_ne_zero]

theorem tenPow_toNat_div (exponent : ℤ) :
    (tenPow exponent.toNat : ℚ) / tenPow (-exponent).toNat = 10 ^ exponent := by
  rw [cast_tenPow, cast_tenPow, zpow_eq_div (by norm_num)]

namespace Rounding

variable (numerator : Nat) {denominator : Nat}

theorem div_bounds (positive : 0 < denominator) :
    ((numerator / denominator : ℕ) : ℚ) ≤ numerator / denominator ∧
      (numerator / denominator : ℚ) < (numerator / denominator : ℕ) + 1 := by
  have positive' : (0 : ℚ) < denominator := by exact_mod_cast positive
  refine ⟨Nat.cast_div_le, ?_⟩
  rw [div_lt_iff₀ positive']
  exact_mod_cast Nat.lt_mul_of_div_lt (Nat.lt_succ_self _) positive

/-- Rounding goes up above the middle between two integers, and on it if the lower one is odd. -/
theorem halfEven_eq_ite (positive : 0 < denominator) :
    halfEven numerator denominator =
      if 2 * ((numerator / denominator : ℕ) : ℚ) + 1 < 2 * (numerator / denominator) ∨
          (2 * ((numerator / denominator : ℕ) : ℚ) + 1 = 2 * (numerator / denominator) ∧
            numerator / denominator % 2 = 1) then
        numerator / denominator + 1
      else numerator / denominator := by
  have positive' : (0 : ℚ) < denominator := by exact_mod_cast positive
  have split : (numerator : ℚ) =
      denominator * (numerator / denominator : ℕ) + (numerator % denominator : ℕ) := by
    exact_mod_cast (Nat.div_add_mod numerator denominator).symm
  have above : denominator < 2 * (numerator % denominator) ↔
      2 * ((numerator / denominator : ℕ) : ℚ) + 1 < 2 * (numerator / denominator) := by
    rw [← Nat.cast_lt (α := ℚ), ← mul_div_assoc, lt_div_iff₀ positive', split]
    push_cast
    constructor <;> intro less <;> linarith
  have middle : 2 * (numerator % denominator) = denominator ↔
      2 * ((numerator / denominator : ℕ) : ℚ) + 1 = 2 * (numerator / denominator) := by
    rw [← Nat.cast_inj (R := ℚ), ← mul_div_assoc, eq_div_iff positive'.ne', split]
    push_cast
    constructor <;> intro same <;> linarith
  simp only [halfEven, above, middle]

theorem abs_halfEven_sub_le (positive : 0 < denominator) :
    |(halfEven numerator denominator : ℚ) - numerator / denominator| ≤ 1 / 2 := by
  obtain ⟨below, above⟩ := div_bounds numerator positive
  rw [halfEven_eq_ite numerator positive, abs_le]
  split
  next up =>
    push_cast
    rcases up with less | ⟨same, -⟩ <;> constructor <;> linarith
  next down =>
    have least := not_lt.mp (not_or.mp down).1
    constructor <;> linarith

theorem even_halfEven (positive : 0 < denominator)
    (middle : |(halfEven numerator denominator : ℚ) - numerator / denominator| = 1 / 2) :
    Even (halfEven numerator denominator) := by
  obtain ⟨below, above⟩ := div_bounds numerator positive
  rw [halfEven_eq_ite numerator positive] at middle ⊢
  split at middle
  next up =>
    rw [if_pos up, Nat.even_add_one, Nat.not_even_iff]
    push_cast at middle
    rw [abs_of_pos (by linarith)] at middle
    rcases up with less | ⟨-, odd⟩
    · linarith
    · exact odd
  next down =>
    rw [if_neg down, Nat.even_iff]
    rw [abs_of_nonpos (by linarith)] at middle
    have not_odd := not_and.mp (not_or.mp down).2 (by linarith)
    omega

theorem halfEven_eq_of_div_eq (positive : 0 < denominator) {count : Nat}
    (exact : (numerator / denominator : ℚ) = count) : halfEven numerator denominator = count := by
  have near := abs_halfEven_sub_le numerator positive
  rw [exact, abs_le] at near
  have upper : (halfEven numerator denominator : ℚ) < count + 1 := by linarith
  have lower : (count : ℚ) < halfEven numerator denominator + 1 := by linarith
  have upper' : halfEven numerator denominator < count + 1 := by exact_mod_cast upper
  have lower' : count < halfEven numerator denominator + 1 := by exact_mod_cast lower
  omega

/-- The lengths of two numbers in bits enclose their quotient between powers of two that differ by
two. -/
private theorem zpow_log2_sub (numerator_pos : 0 < numerator) (denominator_pos : 0 < denominator) :
    (2 : ℚ) ^ ((numerator.log2 : ℤ) - denominator.log2 - 1) ≤ numerator / denominator ∧
      (numerator / denominator : ℚ) < 2 ^ ((numerator.log2 : ℤ) - denominator.log2 + 1) := by
  have denominator_pos' : (0 : ℚ) < denominator := by exact_mod_cast denominator_pos
  have least_numerator : (2 : ℚ) ^ numerator.log2 ≤ numerator := by
    exact_mod_cast Nat.log2_self_le numerator_pos.ne'
  have bound_numerator : (numerator : ℚ) < 2 ^ (numerator.log2 + 1) := by
    exact_mod_cast Nat.lt_log2_self
  have least_denominator : (2 : ℚ) ^ denominator.log2 ≤ denominator := by
    exact_mod_cast Nat.log2_self_le denominator_pos.ne'
  have bound_denominator : (denominator : ℚ) < 2 ^ (denominator.log2 + 1) := by
    exact_mod_cast Nat.lt_log2_self
  set candidate : ℤ := (numerator.log2 : ℤ) - denominator.log2 with candidate_eq
  constructor
  · rw [le_div_iff₀ denominator_pos']
    calc (2 : ℚ) ^ (candidate - 1) * denominator
        ≤ 2 ^ (candidate - 1) * 2 ^ (denominator.log2 + 1) := by gcongr
      _ = 2 ^ numerator.log2 := by
          rw [← zpow_natCast, ← zpow_natCast, ← zpow_add₀ two_ne_zero]
          congr 1
          push_cast
          omega
      _ ≤ numerator := least_numerator
  · rw [div_lt_iff₀ denominator_pos']
    calc (numerator : ℚ) < 2 ^ (numerator.log2 + 1) := bound_numerator
      _ = 2 ^ (candidate + 1) * 2 ^ denominator.log2 := by
          rw [← zpow_natCast, ← zpow_natCast, ← zpow_add₀ two_ne_zero]
          congr 1
          push_cast
          omega
      _ ≤ 2 ^ (candidate + 1) * denominator := by gcongr

/-- The exponent of a quotient encloses it between two successive powers of two. -/
theorem zpow_binaryExponent (numerator_pos : 0 < numerator) (denominator_pos : 0 < denominator) :
    (2 : ℚ) ^ binaryExponent numerator denominator ≤ numerator / denominator ∧
      (numerator / denominator : ℚ) < 2 ^ (binaryExponent numerator denominator + 1) := by
  obtain ⟨lower, upper⟩ := zpow_log2_sub numerator numerator_pos denominator_pos
  set candidate : ℤ := (numerator.log2 : ℤ) - denominator.log2 with candidate_eq
  have test : numerator * twoPow (-candidate).toNat < denominator * twoPow candidate.toNat ↔
      (numerator / denominator : ℚ) < 2 ^ candidate := by
    have denominator_pos' : (0 : ℚ) < denominator := by exact_mod_cast denominator_pos
    have divisor_pos : (0 : ℚ) < twoPow (-candidate).toNat := by exact_mod_cast twoPow_pos _
    rw [← Nat.cast_lt (α := ℚ), ← twoPow_toNat_div, div_lt_div_iff₀ denominator_pos' divisor_pos,
      mul_comm (twoPow candidate.toNat : ℚ)]
    push_cast
    rfl
  simp only [binaryExponent, ← candidate_eq, test]
  split
  next less => exact ⟨lower, by rwa [sub_add_cancel]⟩
  next least => exact ⟨not_lt.mp least, upper⟩

end Rounding
end DeskCalculator
