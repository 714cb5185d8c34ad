import DeskCalculator.Numeric.Binary64

/-!
# Unsigned decimal numbers

A decimal is a coefficient scaled by a power of ten.  `Decimal.magnitude` rounds one to 64-bit
floating point, and `Decimal.ofMagnitude` writes a finite magnitude as the decimal it exactly is.
`Decimal.ofNumeral?` reads a numeral: digits, at least one, with at most one point among or around
them.
-/

namespace DeskCalculator

/-- The number `coefficient * 10 ^ exponent`. -/
structure Decimal where
  /-- The digits, read as an integer. -/
  coefficient : Nat
  /-- The power of ten that scales them. -/
  exponent : Int
  deriving DecidableEq, Repr

namespace Decimal

/-- Numerator of the decimal as a quotient. -/
def numerator (d : Decimal) : Nat := d.coefficient * tenPow d.exponent.toNat

/-- Denominator of the decimal as a quotient. -/
def denominator (d : Decimal) : Nat := tenPow (-d.exponent).toNat

/-- The magnitude word nearest to a decimal. -/
def magnitude (d : Decimal) : Nat := Binary64.nearest d.numerator d.denominator

/-- The floating-point number nearest to a decimal of a given sign. -/
def toFloat (negative : Bool) (d : Decimal) : Float := Binary64.ofMagnitude negative d.magnitude

/-- A finite magnitude as a decimal, exactly: a negative power of two is the same power of ten times
a power of five. -/
def ofMagnitude (magnitude : Nat) : Decimal :=
  let scale := Binary64.scale magnitude
  { coefficient := Binary64.significand magnitude * twoPow scale.toNat * fivePow (-scale).toNat
    exponent := min scale 0 }

/-- The digits of the coefficient. -/
def digits (d : Decimal) : List Char := Nat.toDigits 10 d.coefficient

/-! ## Numerals -/

/-- The value of a digit, for the ten ASCII digits. -/
def digitValue (c : Char) : Nat := c.toNat - '0'.toNat

/-- The integer that a run of digits writes. -/
def ofDigits (run : List Char) : Nat :=
  run.foldl (fun value c => 10 * value + digitValue c) 0

/-- Read a numeral: digits with at most one point, and at least one digit. -/
def ofNumeral? (run : List Char) : Option Decimal :=
  let whole := run.takeWhile Char.isDigit
  let rest := run.dropWhile Char.isDigit
  let places := rest.drop 1
  if rest.take 1 ∈ [[], ['.']] ∧ places.all Char.isDigit ∧ 0 < whole.length + places.length then
    some ⟨ofDigits (whole ++ places), -(places.length : Int)⟩
  else
    none

end Decimal
end DeskCalculator
