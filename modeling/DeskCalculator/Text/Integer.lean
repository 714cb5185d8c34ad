import DeskCalculator.Numeric.Scale
import DeskCalculator.Text.Blank
import DeskCalculator.Text.DecimalDigit

/-!
# Integers as they are typed

`Integer.read?` reads an integer of any size: spacing at both ends is ignored, one sign may come
first, and single low lines may stand between digits.  Neither a longer run of digits than
`Integer.digitLimit` is read nor an integer with more digits written.
-/

namespace DeskCalculator
namespace Text
namespace Integer

/-- The most digits an integer is read or written with; zeros in front count. -/
def digitLimit : Nat := 4300

/-- The values of the digits in a run where single low lines may stand between two digits. -/
def digits? : List Char → Option (List Nat)
  | [] => none
  | [c] => (decimalDigit? c).map fun digit => [digit]
  | c :: '_' :: rest => do
      let digit ← decimalDigit? c
      let digits ← digits? rest
      some (digit :: digits)
  | c :: rest => do
      let digit ← decimalDigit? c
      let digits ← digits? rest
      some (digit :: digits)

/-- Read an unsigned integer. -/
def readNatural? (run : List Char) : Option Nat := do
  let digits ← digits? run
  if digits.length ≤ digitLimit then
    some (digits.foldl (fun value digit => 10 * value + digit) 0)
  else
    none

/-- Read an integer. -/
def read? (text : String) : Option Int :=
  match trim isSpacing text.toList with
  | '-' :: run => (readNatural? run).map fun n => -(n : Int)
  | '+' :: run => (readNatural? run).map fun n => (n : Int)
  | run => (readNatural? run).map fun n => (n : Int)

/-- Whether an integer has few enough digits to be written. -/
def isWritable (n : Int) : Bool := decide (n.natAbs < tenPow digitLimit)

end Integer
end Text
end DeskCalculator
