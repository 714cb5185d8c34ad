import DeskCalculator.Numeric.Scale

/-!
# Rounding a quotient of natural numbers

This file gives the two integer steps on which every conversion between decimal and binary
numbers rests: the nearest integer to a quotient, a tie going to the even one, and the exponent of
the largest power of two that does not exceed a quotient.
-/

namespace DeskCalculator
namespace Rounding

/-- The integer nearest to `numerator / denominator`; halfway between two, the even one. -/
def halfEven (numerator denominator : Nat) : Nat :=
  let quotient := numerator / denominator
  let doubled := 2 * (numerator % denominator)
  if denominator < doubled ∨ (doubled = denominator ∧ quotient % 2 = 1) then
    quotient + 1
  else
    quotient

/-- Rounding never leaves the two integers around the quotient. -/
theorem halfEven_eq_or (numerator denominator : Nat) :
    halfEven numerator denominator = numerator / denominator ∨
      halfEven numerator denominator = numerator / denominator + 1 := by
  simp only [halfEven]
  split
  · exact Or.inr rfl
  · exact Or.inl rfl

/--
The exponent `e` with `2 ^ e ≤ numerator / denominator < 2 ^ (e + 1)`, for positive arguments.
The lengths of the two numbers in bits leave one candidate and its predecessor.
-/
def binaryExponent (numerator denominator : Nat) : Int :=
  let candidate : Int := (numerator.log2 : Int) - denominator.log2
  if numerator * twoPow (-candidate).toNat < denominator * twoPow candidate.toNat then
    candidate - 1
  else
    candidate

end Rounding
end DeskCalculator
