import DeskCalculator.Numeric.Rounding

/-!
# Binary floating point of 64 bits

A value is a sign and a *magnitude word*, the 63 bits below the sign.  Magnitude words are ordered
like the magnitudes they stand for, and the word after the largest finite one is infinity, so
rounding up from it needs no case of its own.
-/

namespace DeskCalculator
namespace Binary64

/-- The magnitude word of infinity: all exponent bits set, no fraction bit. -/
def infinityWord : Nat := 2047 * twoPow 52

/-- What a 64-bit number is, its bits read as a sign and a magnitude word. -/
inductive View where
  /-- Not a number. -/
  | nan
  /-- An infinity of either sign. -/
  | infinite (negative : Bool)
  /-- A finite number, zero and the subnormal ones included. -/
  | finite (negative : Bool) (magnitude : Nat)
  deriving DecidableEq, Repr

/-- Read the bits of a number. -/
def view (x : Float) : View :=
  let word := x.toBits.toNat
  let negative := decide (twoPow 63 ≤ word)
  let magnitude := word % twoPow 63
  if magnitude < infinityWord then
    .finite negative magnitude
  else if magnitude = infinityWord then
    .infinite negative
  else
    .nan

/-- The number of a given sign and magnitude word. -/
def ofMagnitude (negative : Bool) (magnitude : Nat) : Float :=
  Float.ofBits (UInt64.ofNat (if negative then twoPow 63 + magnitude else magnitude))

/-- Positive infinity. -/
def infinity : Float := ofMagnitude false infinityWord

/-- The number that compares equal with none. -/
def nan : Float := ofMagnitude false (infinityWord + twoPow 51)

/-- The integer that a finite magnitude scales by `2 ^ scale`. -/
def significand (magnitude : Nat) : Nat :=
  if magnitude / twoPow 52 = 0 then magnitude else twoPow 52 + magnitude % twoPow 52

/-- The power of two that scales the significand of a finite magnitude; subnormal magnitudes share
the power of the least normal ones. -/
def scale (magnitude : Nat) : Int :=
  max (magnitude / twoPow 52 : Nat) 1 - 1075

/--
The magnitude word nearest to `numerator / denominator`; halfway between two, the even one.  The
quotient is cut at the last place a magnitude of its size has, and the place is counted into the
word, so that rounding up into the next power of two, or out of the subnormal range, carries by
itself.  A quotient too large for any finite magnitude gives infinity.
-/
def nearest (numerator denominator : Nat) : Nat :=
  if numerator = 0 then
    0
  else
    let place := max (Rounding.binaryExponent numerator denominator - 52) (-1074)
    let cut :=
      Rounding.halfEven (numerator * twoPow (-place).toNat) (denominator * twoPow place.toNat)
    min ((place + 1074).toNat * twoPow 52 + cut) infinityWord

theorem nearest_le_infinityWord (numerator denominator : Nat) :
    nearest numerator denominator ≤ infinityWord := by
  simp only [nearest]
  split
  · exact Nat.zero_le _
  · exact Nat.min_le_right _ _

end Binary64
end DeskCalculator
