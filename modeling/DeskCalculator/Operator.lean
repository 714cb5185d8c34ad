/-!
# Operators

The seven operators of an expression with their symbols, their precedence and the arithmetic they
stand for.  An operator stands for an operation between two numbers, for one on a single number, or,
as the percent sign does, for one of each.  Powers come from a numerical library, `Arithmetic`.
-/

namespace DeskCalculator

/-- The numerical library that the calculator works with.  Sums, products, quotients and square
roots are those of the processor; powers are the library's own. -/
class Arithmetic where
  /-- The power of a base to an exponent. -/
  raise : Float → Float → Float

/-- An operator of an expression. -/
inductive Operator where
  | add
  | subtract
  | multiply
  | divide
  | percent
  | power
  | root
  deriving DecidableEq, Repr

namespace Operator

/-- All operators, from the weakest to the strongest. -/
def all : List Operator := [add, subtract, multiply, divide, percent, power, root]

/-- The character that writes an operator. -/
def symbol : Operator → Char
  | add => '+'
  | subtract => '-'
  | multiply => '*'
  | divide => '/'
  | percent => '%'
  | power => '^'
  | root => '√'

/-- The operator that a character writes. -/
def ofSymbol? (c : Char) : Option Operator := all.find? (·.symbol == c)

/-- How strongly an operator holds its operands. -/
def precedence : Operator → Nat
  | add | subtract => 1
  | multiply | divide | percent => 2
  | power | root => 3

/-- The number of operands that an operator takes where nothing around it decides otherwise. -/
def arity : Operator → Int
  | root => 1
  | _ => 2

/-! ## Arithmetic -/

/-- Division of a number into hundredths. -/
def hundredth (x : Float) : Float := x / 100

/-- The operation between two numbers that an operator stands for. -/
def binary? [Arithmetic] : Operator → Option (Float → Float → Float)
  | add => some fun a b => a + b
  | subtract => some fun a b => a - b
  | multiply => some fun a b => a * b
  | divide => some fun a b => a / b
  | percent => some fun a b => a * hundredth b
  | power => some Arithmetic.raise
  | root => none

/-- The operation on a single number that an operator stands for. -/
def unary? : Operator → Option (Float → Float)
  | percent => some hundredth
  | root => some Float.sqrt
  | _ => none

end Operator
end DeskCalculator
