import DeskCalculator.Numeric.Shortest

/-!
# The written form of a floating-point number

`Layout.write` lays out the shortest decimal of a number: with a point among plain digits while the
number is neither very large nor very small, and in scientific form beyond.  `Layout.readDecimal?`
reads such a form without its sign.
-/

namespace DeskCalculator

/-- Where a written number changes from plain digits to scientific form. -/
structure Layout where
  /-- The least exponent of ten, that of the first digit, written with plain digits. -/
  leastPlain : Int
  /-- The first exponent of ten above those written with plain digits. -/
  firstScientific : Int
  /-- The least number of digits in a written exponent. -/
  exponentDigits : Nat

namespace Layout

/-- Numbers from `0.0001` on and below `10 ^ 16` are written with plain digits; an exponent has a
sign and at least two digits. -/
def standard : Layout := ⟨-4, 16, 2⟩

/-- Digits without the zeros at their end. -/
def dropTrailingZeros (digits : List Char) : List Char :=
  (digits.reverse.dropWhile (· == '0')).reverse

/-- Plain digits with a point after the first `point` places, and at least one digit on either side
of it. -/
def plain (digits : List Char) (point : Int) : List Char :=
  if point ≤ 0 then
    '0' :: '.' :: (List.replicate (-point).toNat '0' ++ digits)
  else
    let whole := digits.take point.toNat
    let fraction := digits.drop point.toNat
    whole ++ List.replicate (point.toNat - whole.length) '0' ++
      '.' :: (if fraction.isEmpty then ['0'] else fraction)

/-- One digit, the others after a point if there are any, and the exponent of the first digit. -/
def scientific (layout : Layout) (digits : List Char) (exponent : Int) : List Char :=
  let others := digits.drop 1
  let power := Nat.toDigits 10 exponent.natAbs
  digits.take 1 ++ (if others.isEmpty then [] else '.' :: others) ++
    'e' :: (if exponent < 0 then '-' else '+') ::
      (List.replicate (layout.exponentDigits - power.length) '0' ++ power)

/-- Lay out a decimal. -/
def writeDecimal (layout : Layout) (d : Decimal) : List Char :=
  let point := (d.digits.length : Int) + d.exponent
  if d.coefficient = 0 then
    ['0', '.', '0']
  else if layout.leastPlain < point ∧ point ≤ layout.firstScientific then
    plain (dropTrailingZeros d.digits) point
  else
    layout.scientific (dropTrailingZeros d.digits) (point - 1)

/-- The sign that stands before a written magnitude. -/
def sign (negative : Bool) : List Char := if negative then ['-'] else []

/-- The written form of a number; what is not a number has no sign. -/
def write (layout : Layout) (x : Float) : String :=
  match Binary64.view x with
  | .nan => "nan"
  | .infinite negative => String.ofList (sign negative ++ ['i', 'n', 'f'])
  | .finite negative magnitude =>
      String.ofList (sign negative ++ layout.writeDecimal (Decimal.shortest magnitude))

/-! ## Reading -/

/-- The integer that a non-empty run of digits writes. -/
def readDigits? (run : List Char) : Option Nat :=
  if run.isEmpty ∨ ¬ run.all Char.isDigit then none else some (Decimal.ofDigits run)

/-- The exponent that an optional sign and a run of digits write. -/
def readExponent? : List Char → Option Int
  | '-' :: run => (readDigits? run).map fun power => -(power : Int)
  | '+' :: run => (readDigits? run).map fun power => (power : Int)
  | run => (readDigits? run).map fun power => (power : Int)

/-- Read an unsigned numeral, with or without an exponent. -/
def readDecimal? (text : List Char) : Option Decimal := do
  let d ← Decimal.ofNumeral? (text.takeWhile (· != 'e'))
  match text.dropWhile (· != 'e') with
  | [] => some d
  | _ :: power => do
      let exponent ← readExponent? power
      some ⟨d.coefficient, d.exponent + exponent⟩

end Layout
end DeskCalculator
