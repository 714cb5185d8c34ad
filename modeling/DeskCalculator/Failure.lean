import DeskCalculator.Operator
import DeskCalculator.Text.Quoted

/-!
# Why an expression has no value

The causes for which reading or evaluating an expression fails, and their wording.
-/

namespace DeskCalculator

/-- Why an expression has no value. -/
inductive Cause where
  /-- A literal is no number. -/
  | invalidNumber (literal : String)
  /-- An operator has no operand before it. -/
  | missingOperand (op : Operator)
  /-- An operator stands for no operation on a single number. -/
  | notUnary (op : Operator)
  /-- An operator stands for no operation between two numbers. -/
  | notBinary (op : Operator)
  /-- A value has more digits than there is room for while it is rounded. -/
  | overlong
  deriving DecidableEq, Repr

namespace Cause

/-- The wording of a cause. -/
def message : Cause → String
  | invalidNumber literal => "Número inválido: " ++ Text.quoted literal
  | missingOperand op => "Falta operando para '" ++ op.symbol.toString ++ "'"
  | notUnary op => "Operador unario desconocido: " ++ op.symbol.toString
  | notBinary op => "Operador binario desconocido: " ++ op.symbol.toString
  | overlong => "[<class 'decimal.InvalidOperation'>]"

end Cause

/-- A failure to evaluate, with the expression as far as it is known. -/
structure Failure where
  /-- What went wrong. -/
  cause : Cause
  /-- The expression that was evaluated. -/
  expression : Option String
  deriving DecidableEq, Repr

/-- The failure that a cause makes of an expression.  Only a cause that lies in the expression
keeps it. -/
def Cause.failure (cause : Cause) (expression : Option String) : Failure :=
  match cause with
  | invalidNumber _ | missingOperand _ => ⟨cause, expression⟩
  | notUnary _ | notBinary _ | overlong => ⟨cause, none⟩

@[simp]
theorem Cause.cause_failure (cause : Cause) (expression : Option String) :
    (cause.failure expression).cause = cause := by
  cases cause <;> rfl

end DeskCalculator
