import DeskCalculator.Numeric.Layout

/-!
# Decimals cut to a number of places

`FixedPlaces.round` counts the units of the last place nearest to a decimal, halfway the even count,
and `FixedPlaces.write` writes such a count with as few places as its value needs.  A negative
number of places cuts in front of the point.
-/

namespace DeskCalculator
namespace FixedPlaces

/-- How many units of the last place come nearest to a decimal. -/
def round (places : Int) (d : Decimal) : Nat :=
  let shifted := d.exponent + places
  Rounding.halfEven (d.coefficient * tenPow shifted.toNat) (tenPow (-shifted).toNat)

/-- The digits of a number, zeros in front filling up to `width`. -/
def paddedDigits (width n : Nat) : List Char :=
  let digits := Nat.toDigits 10 n
  List.replicate (width - digits.length) '0' ++ digits

/-- The digits after the point that a count of units needs; the last of them is no zero. -/
def fraction (places units : Nat) : List Char :=
  Layout.dropTrailingZeros (paddedDigits places (units % tenPow places))

/-- Write a count of units of the last place. -/
def write (places : Int) (units : Nat) : List Char :=
  let behind := places.toNat
  let scaled := units * tenPow (-places).toNat
  let fraction := fraction behind scaled
  Nat.toDigits 10 (scaled / tenPow behind) ++ (if fraction.isEmpty then [] else '.' :: fraction)

/-- Write a count of units with a sign; zero has none. -/
def writeSigned (places : Int) (negative : Bool) (units : Nat) : List Char :=
  (if units = 0 then [] else Layout.sign negative) ++ write places units

end FixedPlaces
end DeskCalculator
