import DeskCalculator.Numeric.Decimal
import DeskCalculator.Proofs.Numeric.Nearest

/-!
# Decimals as numbers

`Decimal.toRat` is the rational number that a decimal writes.  Reading a decimal depends on that
number alone, and the decimal of a magnitude word writes exactly the size of the word.
-/

namespace DeskCalculator
namespace Decimal

open Binary64 (RoundsTo infinityWord size)

/-- The number that a decimal writes. -/
def toRat (d : Decimal) : ℚ := d.coefficient * 10 ^ d.exponent

/-- The number that a decimal writes after a sign. -/
def signed (negative : Bool) (d : Decimal) : ℚ := if negative then -d.toRat else d.toRat

theorem toRat_add_exponent (d : Decimal) (exponent : ℤ) :
    toRat ⟨d.coefficient, d.exponent + exponent⟩ = d.toRat * 10 ^ exponent := by
  rw [toRat, toRat, zpow_add₀ (by norm_num), mul_assoc]

theorem denominator_pos (d : Decimal) : 0 < d.denominator := tenPow_pos _

theorem numerator_div_denominator (d : Decimal) : (d.numerator / d.denominator : ℚ) = d.toRat := by
  rw [numerator, denominator, toRat, ← tenPow_toNat_div]
  push_cast
  rw [mul_div_assoc]

theorem magnitude_eq_of_roundsTo {d : Decimal} {magnitude : Nat} (finite : magnitude < infinityWord)
    (rounds : RoundsTo d.toRat magnitude) : d.magnitude = magnitude := by
  obtain ⟨found, to_found, same⟩ := Binary64.nearest_roundsTo d.numerator d.denominator_pos
  rw [numerator_div_denominator] at to_found
  rw [Decimal.magnitude, same, to_found.unique rounds, min_eq_left finite.le]

theorem roundsTo_magnitude {d : Decimal} (finite : d.magnitude < infinityWord) :
    RoundsTo d.toRat d.magnitude := by
  obtain ⟨found, to_found, same⟩ := Binary64.nearest_roundsTo d.numerator d.denominator_pos
  rw [numerator_div_denominator] at to_found
  have inside : d.magnitude = found := by
    rw [Decimal.magnitude] at finite ⊢
    omega
  rwa [inside]

theorem toRat_ofMagnitude (magnitude : Nat) : (ofMagnitude magnitude).toRat = size magnitude := by
  set scale := Binary64.scale magnitude with scale_eq
  have powers : (2 : ℚ) ^ scale.toNat * 5 ^ (-scale).toNat * 10 ^ min scale 0 = 2 ^ scale := by
    rcases le_total 0 scale with whole | fractional
    · obtain ⟨exponent, same⟩ := Int.eq_ofNat_of_zero_le whole
      simp [same]
    · obtain ⟨exponent, same⟩ := Int.exists_eq_neg_ofNat fractional
      have ten : (10 : ℚ) = 2 * 5 := by norm_num
      have five : (5 : ℚ) ^ exponent ≠ 0 := by positivity
      rw [same, min_eq_left (by omega), zpow_neg, zpow_neg, neg_neg, Int.toNat_natCast,
        Int.toNat_neg_natCast, zpow_natCast, zpow_natCast, ten, mul_pow, mul_inv]
      field_simp
  simp only [toRat, ofMagnitude, ← scale_eq, size]
  push_cast
  rw [cast_twoPow, cast_fivePow, ← powers]
  ring

theorem magnitude_ofMagnitude {magnitude : Nat} (finite : magnitude < infinityWord) :
    (ofMagnitude magnitude).magnitude = magnitude := by
  refine magnitude_eq_of_roundsTo finite ?_
  rw [toRat_ofMagnitude]
  exact RoundsTo.ofSize magnitude

/-- The number of a decimal at some place, where more digits of the coefficient lie behind it. -/
theorem toRat_eq_div_div {d : Decimal} {dropped places : Nat}
    (split : d.exponent + dropped = -(places : ℤ)) :
    d.toRat = d.coefficient / 10 ^ dropped / 10 ^ places := by
  have exponent_eq : d.exponent = -(places : ℤ) - dropped := by omega
  rw [toRat, exponent_eq, zpow_sub₀ (by norm_num), zpow_neg, zpow_natCast, zpow_natCast]
  field_simp

theorem exists_toRat_eq_div {d : Decimal} {places : Nat} (coarse : -(places : ℤ) ≤ d.exponent) :
    ∃ count : Nat, d.toRat = count / 10 ^ places := by
  refine ⟨d.coefficient * 10 ^ (d.exponent + places).toNat, ?_⟩
  have power : (10 : ℚ) ^ (d.exponent + places).toNat = 10 ^ d.exponent * 10 ^ places := by
    rw [← zpow_natCast, ← zpow_natCast, ← zpow_add₀ (by norm_num)]
    congr 1
    omega
  push_cast
  rw [power, toRat, ← mul_assoc, mul_div_cancel_right₀ _ (by positivity)]

end Decimal
end DeskCalculator
