import DeskCalculator.Failure
import DeskCalculator.Postfix

/-!
# Notices

What the calculator reports about its work besides results.  A notice has a level, so that only the
weighty ones need be shown, and names the part of the calculator it comes from.
-/

namespace DeskCalculator

/-- How weighty a notice is. -/
inductive Level where
  | debug
  | info
  | warning
  | error
  deriving DecidableEq, Repr

namespace Level

/-- All levels, from the least to the most weighty. -/
def all : List Level := [debug, info, warning, error]

/-- The name of a level. -/
def name : Level → String
  | debug => "DEBUG"
  | info => "INFO"
  | warning => "WARNING"
  | error => "ERROR"

/-- The level of a given name. -/
def ofName? (name : String) : Option Level := all.find? (·.name == name)

@[simp]
theorem ofName?_name (level : Level) : ofName? level.name = some level := by
  cases level <;> decide

/-- The place of a level among all levels. -/
def rank : Level → Nat
  | debug => 0
  | info => 1
  | warning => 2
  | error => 3

end Level

/-- The part of the calculator that makes a notice. -/
inductive Origin where
  | tokens
  | evaluation
  | engine
  | front
  deriving DecidableEq, Repr

/-- The name of a part of the calculator. -/
def Origin.name : Origin → String
  | tokens => "tokenizer"
  | evaluation => "formula_evaluator"
  | engine => "calculator_engine"
  | front => "main"

/-- Something worth reporting. -/
inductive Notice where
  /-- A character was left out that is no part of any expression. -/
  | ignoredCharacter (c : Char)
  /-- A source text has been read as these tokens. -/
  | tokenized (source : String) (tokens : List Token)
  /-- These are the items of an expression in postfix notation. -/
  | translated (items : List Item)
  /-- A closing parenthesis has no opening one. -/
  | unopened
  /-- An opening parenthesis has no closing one. -/
  | unclosed
  /-- An operator between two operands has none on its left, and takes zero. -/
  | missingLeft (op : Operator)
  /-- More than one value is left at the end of an expression. -/
  | leftover (count : Nat)
  /-- An expression holds a literal that is no number. -/
  | malformed (expression : String) (cause : Cause)
  /-- An expression lacks an operand. -/
  | incomplete (expression : String) (cause : Cause)
  /-- The interactive session begins. -/
  | interactive
  deriving DecidableEq

namespace Notice

/-- How weighty a notice is. -/
def level : Notice → Level
  | ignoredCharacter _ | tokenized _ _ | translated _ | leftover _ => .debug
  | malformed _ _ | incomplete _ _ | interactive => .info
  | unopened | unclosed | missingLeft _ => .warning

/-- The part of the calculator that a notice comes from. -/
def origin : Notice → Origin
  | ignoredCharacter _ | tokenized _ _ => .tokens
  | translated _ | unopened | unclosed | missingLeft _ | leftover _ => .evaluation
  | malformed _ _ | incomplete _ _ => .engine
  | interactive => .front

/-- The wording of a notice. -/
def message : Notice → String
  | ignoredCharacter c => "Carácter ignorado: " ++ Text.quoted c.toString
  | tokenized source tokens =>
      "Tokens de " ++ Text.quoted source ++ ": " ++ " ".intercalate (tokens.map Token.text)
  | translated items => "Postfija: " ++ " ".intercalate (items.map Item.text)
  | unopened => "')' sin '(' correspondiente, se ignora"
  | unclosed => "'(' sin cerrar, se ignora"
  | missingLeft op =>
      "Falta operando izquierdo para '" ++ op.symbol.toString ++ "', se usa 0"
  | leftover count => "Quedan " ++ toString count ++ " valores en la pila, se toma el último"
  | malformed expression cause =>
      "Error de sintaxis en " ++ Text.quoted expression ++ ": " ++ cause.message
  | incomplete expression cause =>
      "Expresión incompleta " ++ Text.quoted expression ++ ": " ++ cause.message
  | interactive => "Modo interactivo"

/-- A notice on one line. -/
def line (notice : Notice) : String :=
  notice.origin.name ++ " - " ++ notice.level.name ++ " - " ++ notice.message

/-- The lines of the notices of a level or a more weighty one. -/
def lines (least : Level) (notices : List Notice) : List String :=
  (notices.filter fun notice => least.rank ≤ notice.level.rank).map line

end Notice

end DeskCalculator
