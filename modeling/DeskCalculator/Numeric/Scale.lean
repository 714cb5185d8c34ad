/-!
# Powers of two, five and ten

The scales of binary and decimal numbers, by names of their own.
-/

namespace DeskCalculator

/-- Two to the power of `exponent`. -/
def twoPow (exponent : Nat) : Nat := Nat.pow 2 exponent

/-- Five to the power of `exponent`. -/
def fivePow (exponent : Nat) : Nat := Nat.pow 5 exponent

/-- Ten to the power of `exponent`. -/
def tenPow (exponent : Nat) : Nat := Nat.pow 10 exponent

@[simp]
theorem tenPow_zero : tenPow 0 = 1 := rfl

theorem twoPow_pos (exponent : Nat) : 0 < twoPow exponent := Nat.pow_pos (by decide)

theorem tenPow_pos (exponent : Nat) : 0 < tenPow exponent := Nat.pow_pos (by decide)

end DeskCalculator
