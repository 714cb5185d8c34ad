import DeskCalculator.Display
import DeskCalculator.Evaluation
import DeskCalculator.History

/-!
# Calculations

A calculation evaluates an expression as the display shows it, and keeps it in a history if it has
a value.
-/

namespace DeskCalculator

/-- The kinds of failures that a calculation tells apart. -/
inductive FailureKind where
  /-- A literal is no number. -/
  | parse
  /-- An operator has no operand. -/
  | missingOperand
  deriving DecidableEq, Repr

/-- The name of a kind of failures. -/
def FailureKind.name : FailureKind → String
  | parse => "parse"
  | missingOperand => "missing_operand"

/-- The kind of a cause; one that no text leads to has none. -/
def Cause.kind? : Cause → Option FailureKind
  | invalidNumber _ => some .parse
  | missingOperand _ => some .missingOperand
  | notUnary _ => none
  | notBinary _ => none
  | overlong => none

/-- What the calculation of an expression comes to. -/
inductive Outcome where
  /-- The expression has a value, shown as a text. -/
  | success (expression : String) (value : Float) (text : String)
  /-- The expression has no value. -/
  | failure (expression : String) (cause : Cause)
  deriving DecidableEq

namespace Outcome

/-- The expression as it was entered. -/
def expression : Outcome → String
  | success expression _ _ => expression
  | failure expression _ => expression

/-- The text that the display shows. -/
def text : Outcome → String
  | success _ _ text => text
  | failure _ _ => "Error"

/-- The value of the expression, if it has one. -/
def value? : Outcome → Option Float
  | success _ value _ => some value
  | failure _ _ => none

/-- The kind of the failure, if the expression has no value. -/
def kind? : Outcome → Option FailureKind
  | success _ _ _ => none
  | failure _ cause => cause.kind?

/-- Whether the expression has a value. -/
def isSuccess : Outcome → Bool
  | success _ _ _ => true
  | failure _ _ => false

end Outcome

namespace Calculation

/-- The value of a displayed expression. -/
def value [Arithmetic] (expression : String) : Traced (Except Failure Float) :=
  Evaluation.evaluate (Display.normalize expression)

/-- The text that the display shows for a value. -/
def shown (x : Float) : Except Failure String :=
  match Display.write? Display.places x with
  | some text => .ok text
  | none => .error (Cause.overlong.failure none)

/-- The text that the display shows for an expression. -/
def text [Arithmetic] (expression : String) : Traced (Except Failure String) := do
  let result ← value expression
  return result.bind shown

/-- Whether an expression is blank, so that there is nothing to calculate. -/
def isBlank (expression : String) : Bool := expression.toList.all Text.isBlank

/-- The notice that a failed calculation deserves. -/
def notice? (expression : String) : Cause → Option Notice
  | .invalidNumber literal => some (.malformed expression (.invalidNumber literal))
  | .missingOperand op => some (.incomplete expression (.missingOperand op))
  | .notUnary _ => none
  | .notBinary _ => none
  | .overlong => none

/-- Calculate an expression: what it comes to, unless it is blank, and the history after it.  The
history keeps the expression as it was entered. -/
def calculate [Arithmetic] (history : History) (expression : String) :
    Traced (Option Outcome × History) :=
  if isBlank expression then
    return (none, history)
  else do
    let result ← value expression
    match result.bind fun x => (shown x).map fun text => (x, text) with
    | .ok (x, text) =>
        return (some (.success expression x text), history.add ⟨expression, text⟩)
    | .error failure =>
        if let some notice := notice? expression failure.cause then
          Traced.note notice
        return (some (.failure expression failure.cause), history)

end Calculation
end DeskCalculator
