import DeskCalculator.Postfix.OfTokens
import DeskCalculator.Token.OfSource

/-!
# The value of an expression

An expression in postfix notation is reduced with a stack of values.  A left operand that is missing
counts as zero, of several values left the last one counts, and nothing at all has the value zero.
Only an operator before any value fails.
-/

namespace DeskCalculator

/-- The number that an operator makes of a single operand. -/
def Operator.applyUnary (op : Operator) (a : Float) : Except Cause Float :=
  match op.unary? with
  | some operation => .ok (operation a)
  | none => .error (.notUnary op)

/-- The number that an operator makes of two operands. -/
def Operator.applyBinary [Arithmetic] (op : Operator) (a b : Float) : Except Cause Float :=
  match op.binary? with
  | some operation => .ok (operation a b)
  | none => .error (.notBinary op)

namespace Evaluation

variable [Arithmetic]

/-- Apply one item to the values read so far, the last of them first. -/
def step (values : List Float) : Item → Traced (Except Cause (List Float))
  | .number value => return .ok (value :: values)
  | .operator op arity =>
      match values with
      | [] => return .error (.missingOperand op)
      | last :: below =>
          if arity = 1 then
            return (op.applyUnary last).map (· :: below)
          else
            match below with
            | [] => do
                Traced.note (.missingLeft op)
                return (op.applyBinary 0 last).map (· :: [])
            | left :: below => return (op.applyBinary left last).map (· :: below)

/-- Apply a list of items to the values read so far. -/
def reduce : List Float → List Item → Traced (Except Cause (List Float))
  | values, [] => return .ok values
  | values, item :: rest => do
      match ← step values item with
      | .error cause => return .error cause
      | .ok values => reduce values rest

/-- Items can be applied in two parts: the first part counts for the second only by its values. -/
theorem reduce_append (values : List Float) (before after : List Item) :
    reduce values (before ++ after) = (do
      match ← reduce values before with
      | .error cause => return .error cause
      | .ok values => reduce values after) := by
  induction before generalizing values with
  | nil => simp [reduce]
  | cons item rest induction =>
      simp only [List.cons_append, reduce, bind_assoc]
      congr 1
      funext applied
      cases applied with
      | error cause => simp
      | ok values => exact induction values

/-- The value that a stack of values stands for. -/
def result : List Float → Traced Float
  | [] => return 0
  | [value] => return value
  | value :: below => do
      Traced.note (.leftover (below.length + 1))
      return value

/-- The value of an expression in postfix notation; a failure keeps the text of the expression as
far as it is known. -/
def ofItems (items : List Item) (expression : Option String := none) :
    Traced (Except Failure Float) := do
  match ← reduce [] items with
  | .error cause => return .error (cause.failure expression)
  | .ok values => return .ok (← result values)

/-- The value of a list of tokens. -/
def ofTokens (tokens : List Token) (expression : Option String := none) :
    Traced (Except Failure Float) := do
  let items ← Postfix.ofTokens tokens
  Traced.note (.translated items)
  ofItems items expression

/-- The value of the text of an expression. -/
def evaluate (source : String) : Traced (Except Failure Float) := do
  match ← Token.ofSource source with
  | .error failure => return .error failure
  | .ok tokens => ofTokens tokens (some source)

end Evaluation
end DeskCalculator
