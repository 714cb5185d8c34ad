import DeskCalculator.Numeric.FixedPlaces
import DeskCalculator.Text.Blank

/-!
# What the display shows

`Display.normalize` leads from an expression with the signs of the display to one with plain
operators, `Display.write?` from a number to the text of a result.  A number is rounded with room
for `Display.precision` digits; without enough of it there is no text.
-/

namespace DeskCalculator
namespace Display

/-- The plain character for a character of the display. -/
def plain (c : Char) : Char :=
  if c = '×' then '*' else if c = '÷' then '/' else if c = '−' then '-' else c

/-- An expression without blanks at its ends and with plain operators. -/
def normalize (expression : String) : String :=
  String.ofList ((Text.trim Text.isBlank expression.toList).map plain)

/-- The number of decimal places that the display has room for. -/
def places : Int := 8

/-- A number with at most the given number of decimal places.  The shortest decimal of the number
is rounded, halfway to the even digit; an unbounded number and an undefined one have names. -/
def write (places : Int) (x : Float) : String :=
  match Binary64.view x with
  | .nan => "NaN"
  | .infinite negative => String.ofList (Layout.sign negative ++ ['∞'])
  | .finite negative magnitude =>
      String.ofList (FixedPlaces.writeSigned places negative
        (FixedPlaces.round places (Decimal.shortest magnitude)))

/-- How many digits there is room for while a number is rounded to its places. -/
def precision : Nat := 400

/-- The text of a number if the number rounded has room, which an unbounded and an undefined one
do not need. -/
def write? (places : Int) (x : Float) : Option String :=
  match Binary64.view x with
  | .finite _ magnitude =>
      if FixedPlaces.round places (Decimal.shortest magnitude) < tenPow precision then
        some (write places x)
      else
        none
  | _ => some (write places x)

end Display
end DeskCalculator
