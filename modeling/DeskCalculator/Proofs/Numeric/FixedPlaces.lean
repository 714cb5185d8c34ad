import DeskCalculator.Numeric.FixedPlaces
import DeskCalculator.Proofs.Numeric.Decimal

/-!
# Rounding to a number of places

`FixedPlaces.round` leaves a decimal by at most half a unit of the last place and finds a count
again that the decimal already is.  No other count is nearer, and where another is as near, the
count found is even.
-/

namespace DeskCalculator
namespace FixedPlaces

variable {places : Nat} {d : Decimal}

private theorem shifted_div (places : Nat) (d : Decimal) :
    ((d.coefficient * tenPow (d.exponent + places).toNat : ℕ) /
      (tenPow (-(d.exponent + places)).toNat : ℕ) : ℚ) = d.toRat * 10 ^ places := by
  push_cast
  rw [mul_div_assoc, tenPow_toNat_div, zpow_add₀ (by norm_num), zpow_natCast, ← mul_assoc,
    Decimal.toRat]

private theorem abs_round_div_sub (places : Nat) (d : Decimal) :
    |(round places d / 10 ^ places : ℚ) - d.toRat| =
      |round places d - d.toRat * 10 ^ places| / 10 ^ places := by
  have power_pos : (0 : ℚ) < 10 ^ places := by positivity
  rw [div_sub' power_pos.ne', abs_div, abs_of_pos power_pos, mul_comm]

theorem abs_round_div_sub_le (places : Nat) (d : Decimal) :
    |(round places d / 10 ^ places : ℚ) - d.toRat| ≤ 1 / 2 / 10 ^ places := by
  have near := Rounding.abs_halfEven_sub_le
    (d.coefficient * tenPow (d.exponent + places).toNat) (tenPow_pos (-(d.exponent + places)).toNat)
  rw [shifted_div] at near
  rw [abs_round_div_sub, div_le_div_iff_of_pos_right (by positivity)]
  exact near

/-- A decimal half a unit away from what it is rounded to is rounded to an even count. -/
theorem even_round (middle : |(round places d / 10 ^ places : ℚ) - d.toRat| = 1 / 2 / 10 ^ places) :
    Even (round places d) := by
  refine Rounding.even_halfEven _ (tenPow_pos (-(d.exponent + places)).toNat) ?_
  rw [abs_round_div_sub, div_left_inj' (by positivity)] at middle
  rw [shifted_div]
  exact middle

theorem round_eq_of_toRat {count : Nat} (exact : d.toRat = count / 10 ^ places) :
    round places d = count := by
  refine Rounding.halfEven_eq_of_div_eq _ (tenPow_pos _) ?_
  rw [shifted_div, exact, div_mul_cancel₀ _ (by positivity)]

theorem round_div_eq_toRat (places : Nat) (coarse : -(places : ℤ) ≤ d.exponent) :
    (round places d / 10 ^ places : ℚ) = d.toRat := by
  obtain ⟨count, exact⟩ := Decimal.exists_toRat_eq_div coarse
  rw [round_eq_of_toRat exact, exact]

/-! ## The nearest multiple -/

/-- A count of units of the last place is nearest to a number if no other count is nearer and no
other one as near, unless it is even itself. -/
structure IsNearest (places : Nat) (number : ℚ) (count : ℤ) : Prop where
  /-- No other multiple of the unit is nearer. -/
  le : ∀ other : ℤ, |(count / 10 ^ places : ℚ) - number| ≤ |other / 10 ^ places - number|
  /-- Halfway between two multiples, the last digit is even. -/
  even : ∀ other : ℤ, other ≠ count →
    |(other / 10 ^ places : ℚ) - number| = |count / 10 ^ places - number| → Even count

namespace IsNearest

variable {number : ℚ} {count : ℤ}

/-- Multiples of a unit lie a unit apart, so half a unit is as far as the nearest one can be. -/
theorem of_abs_le (near : |(count / 10 ^ places : ℚ) - number| ≤ 1 / 2 / 10 ^ places)
    (even : |(count / 10 ^ places : ℚ) - number| = 1 / 2 / 10 ^ places → Even count) :
    IsNearest places number count := by
  have apart {other : ℤ} (different : other ≠ count) :
      1 / 2 / 10 ^ places + 1 / 2 / 10 ^ places ≤
        |(other / 10 ^ places : ℚ) - number| + |(count / 10 ^ places : ℚ) - number| := by
    have power_pos : (0 : ℚ) < 10 ^ places := by positivity
    have step : (1 : ℚ) ≤ |(other : ℚ) - count| := by
      exact_mod_cast Int.one_le_abs (sub_ne_zero.mpr different)
    calc (1 / 2 / 10 ^ places + 1 / 2 / 10 ^ places : ℚ) = 1 / 10 ^ places := by
          rw [← add_div, add_halves]
      _ ≤ |(other : ℚ) - count| / 10 ^ places := by gcongr
      _ = |(other / 10 ^ places : ℚ) - count / 10 ^ places| := by
          rw [← sub_div, abs_div, abs_of_pos power_pos]
      _ ≤ |(other / 10 ^ places : ℚ) - number| + |number - count / 10 ^ places| :=
          abs_sub_le _ _ _
      _ = _ := by rw [abs_sub_comm number]
  constructor
  · intro other
    rcases eq_or_ne other count with rfl | different
    · exact le_rfl
    · linarith [apart different]
  · intro other different same
    exact even (by linarith [apart different])

theorem neg (nearest : IsNearest places number count) : IsNearest places (-number) (-count) := by
  have mirrored (other : ℤ) :
      |((-other : ℤ) / 10 ^ places : ℚ) - -number| = |other / 10 ^ places - number| := by
    rw [Int.cast_neg, neg_div, neg_sub_neg, abs_sub_comm]
  constructor
  · intro other
    rw [mirrored, ← neg_neg other, mirrored]
    exact nearest.le (-other)
  · intro other different same
    rw [mirrored, ← neg_neg other, mirrored] at same
    exact (nearest.even (-other) (by omega) same).neg

end IsNearest

/-- A decimal is rounded to the nearest multiple of the unit. -/
theorem isNearest_round (places : Nat) (d : Decimal) :
    IsNearest places d.toRat (round places d) := by
  refine IsNearest.of_abs_le ?_ fun middle => ?_
  · exact abs_round_div_sub_le places d
  · exact (even_round middle).natCast

end FixedPlaces
end DeskCalculator
