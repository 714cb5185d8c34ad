import DeskCalculator.Numeric.Binary64
import DeskCalculator.Operator

/-!
# Powers

`Power.raise` is the power the program is built with; no law of expressions depends on it.  In the
finite case `2 ^ (y * log₂ x)` is computed in fixed point with many more bits than a result has, cut
to `Power.guardBits` bits and rounded once more.  Zeros, infinities and signs follow the limits of
the real function.
-/

namespace DeskCalculator
namespace Power

open Binary64 (View ofMagnitude infinityWord)

/-! ## Fixed point -/

/-- Bits after the point while computing. -/
def workingBits : Nat := 320

/-- Bits after the point that are kept of a significand before its final rounding. -/
def guardBits : Nat := 200

/-- One, in fixed point. -/
def unit : Int := twoPow workingBits

/-- The sum `z + z³/3 + z⁵/5 + …` of `terms` terms: `z` times a power of its square is `power`,
and `odd` the next divisor. -/
def atanhSum (square : Int) : (terms : Nat) → (power : Int) → (odd : Nat) → Int
  | 0, _, _ => 0
  | terms + 1, power, odd =>
      power / odd + atanhSum square terms (power * square / unit) (odd + 2)

/-- The logarithm of `numerator / denominator`, twice the inverse hyperbolic tangent of
`(numerator - denominator) / (numerator + denominator)`; exact to the working bits for quotients
between one half and two. -/
def logarithm (numerator denominator : Int) : Int :=
  let z := (numerator - denominator) * unit / (numerator + denominator)
  2 * atanhSum (z * z / unit) 110 z 1

/-- The natural logarithm of two. -/
def logarithmOfTwo : Int := logarithm 2 1

/-- The sum `term + term·u/k + term·u²/(k (k + 1)) + …` of `terms` terms. -/
def exponentialSum (u : Int) : (terms : Nat) → (term : Int) → (k : Nat) → Int
  | 0, _, _ => 0
  | terms + 1, term, k => term + exponentialSum u terms (term * u / (unit * k)) (k + 1)

/-- Two to the power of a fraction below one. -/
def exponential₂ (fraction : Int) : Int :=
  exponentialSum (fraction * logarithmOfTwo / unit) 90 unit 1

/-- The binary logarithm of a positive finite magnitude.  Its significand is scaled to lie between
three quarters and three halves, so that the logarithm of a number near one keeps its digits. -/
def logarithm₂ (magnitude : Nat) : Int :=
  let significand := Binary64.significand magnitude
  let length := significand.log2
  let doubled := decide (3 * twoPow length ≤ 2 * significand)
  let exponent : Int := Binary64.scale magnitude + length + (if doubled then 1 else 0)
  exponent * unit +
    logarithm significand (twoPow (length + if doubled then 1 else 0)) * unit / logarithmOfTwo

/-- The magnitude of a positive finite magnitude to a finite power of a given sign. -/
def finiteMagnitude (base : Nat) (negative : Bool) (exponent : Nat) : Nat :=
  let scale := Binary64.scale exponent
  let factor : Int := Binary64.significand exponent * twoPow scale.toNat
  let product :=
    logarithm₂ base * (if negative then -factor else factor) / twoPow (-scale).toNat
  let whole := product / unit
  if 1024 ≤ whole then
    infinityWord
  else if whole < -1100 then
    0
  else
    let kept :=
      Rounding.halfEven (exponential₂ (product % unit)).toNat (twoPow (workingBits - guardBits))
    Binary64.nearest (kept * twoPow whole.toNat) (twoPow guardBits * twoPow (-whole).toNat)

/-! ## Signs and limits -/

/-- The integer that a finite magnitude is, if it is one. -/
def integer? (magnitude : Nat) : Option Nat :=
  let scale := Binary64.scale magnitude
  let numerator := Binary64.significand magnitude * twoPow scale.toNat
  let denominator := twoPow (-scale).toNat
  if numerator % denominator = 0 then some (numerator / denominator) else none

/-- Whether a finite magnitude is an odd integer. -/
def isOdd (magnitude : Nat) : Bool :=
  match integer? magnitude with
  | some n => n % 2 == 1
  | none => false

/-- The magnitude word of one. -/
def oneWord : Nat := 1023 * twoPow 52

/-- One to any power, and any number to the power of zero. -/
def one : Float := ofMagnitude false oneWord

/-- The limit of the powers of a magnitude for an exponent of unbounded size. -/
def unboundedPower (base : Nat) (negative : Bool) : Float :=
  match compare base oneWord, negative with
  | .eq, _ => one
  | .lt, false => ofMagnitude false 0
  | .lt, true => Binary64.infinity
  | .gt, false => Binary64.infinity
  | .gt, true => ofMagnitude false 0

/-- A power, by what base and exponent are.  An odd integer as exponent keeps the sign of the base;
a negative base has no power with an exponent that is not an integer. -/
def ofViews : View → View → Float
  | _, .finite _ 0 => one
  | base, exponent =>
      if base = .finite false oneWord then
        one
      else
        match base, exponent with
        | .nan, _ => Binary64.nan
        | _, .nan => Binary64.nan
        | .infinite _, .infinite negative => unboundedPower infinityWord negative
        | .finite _ base, .infinite negative => unboundedPower base negative
        | .infinite sign, .finite negative exponent =>
            ofMagnitude (sign && isOdd exponent) (if negative then 0 else infinityWord)
        | .finite sign 0, .finite negative exponent =>
            ofMagnitude (sign && isOdd exponent) (if negative then infinityWord else 0)
        | .finite sign base, .finite negative exponent =>
            if sign ∧ (integer? exponent).isNone then
              Binary64.nan
            else
              ofMagnitude (sign && isOdd exponent) (finiteMagnitude base negative exponent)

/-- The power `x ^ y`. -/
def power (x y : Float) : Float := ofViews (Binary64.view x) (Binary64.view y)

/-- A power.  Squares, reciprocals and square roots are the products, quotients and roots that the
processor computes, which fixes their sign of zero and their limits. -/
def raise (base exponent : Float) : Float :=
  if exponent == 2 then
    base * base
  else if exponent == -1 then
    1 / base
  else if exponent == 0.5 then
    base.sqrt
  else
    power base exponent

instance : Arithmetic := ⟨raise⟩

end Power
end DeskCalculator
