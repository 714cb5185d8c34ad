import DeskCalculator.Numeric.Layout
import DeskCalculator.Operator

/-!
# Tokens

The words of an expression: numbers, operators and parentheses.
-/

namespace DeskCalculator

/-- A word of an expression. -/
inductive Token where
  /-- A number. -/
  | number (value : Float)
  /-- An operator, marked with the number of operands it is meant to take. -/
  | operator (op : Operator) (arity : Int)
  /-- An opening parenthesis. -/
  | opening
  /-- A closing parenthesis. -/
  | closing
  deriving DecidableEq

namespace Token

/-- An operator with its own arity. -/
def ofOperator (op : Operator) : Token := .operator op op.arity

/-- A token as it is written. -/
def text : Token → String
  | number value => Layout.standard.write value
  | operator op _ => op.symbol.toString
  | opening => "("
  | closing => ")"

end Token
end DeskCalculator
