import DeskCalculator.Token

/-!
# Postfix notation

An expression in postfix notation is a list of numbers and operators, every operator after its
operands.  It has no parentheses.
-/

namespace DeskCalculator

/-- One place of an expression in postfix notation. -/
inductive Item where
  /-- A number. -/
  | number (value : Float)
  /-- An operator.  Marked with one, it takes the operand before it; with any other number, the two
  before it. -/
  | operator (op : Operator) (arity : Int)
  deriving DecidableEq

namespace Item

/-- The token that stands for an item. -/
def toToken : Item → Token
  | number value => .number value
  | operator op arity => .operator op arity

/-- An item as it is written. -/
def text (item : Item) : String := item.toToken.text

end Item
end DeskCalculator
