import DeskCalculator.Operator

/-!
# Lexemes

The first reading of an expression cuts its characters into literals, operators, parentheses and
ignored characters.  A minus sign is the sign of a literal where an operand is expected and a digit
or point follows, and a subtraction everywhere else.
-/

namespace DeskCalculator

/-- A piece of the text of an expression. -/
inductive Lexeme where
  /-- A run of digits and points with the sign before it. -/
  | literal (negative : Bool) (run : List Char)
  /-- An operator. -/
  | operator (op : Operator)
  /-- An opening parenthesis. -/
  | opening
  /-- A closing parenthesis. -/
  | closing
  /-- A character that means nothing. -/
  | ignored (c : Char)
  deriving DecidableEq, Repr

namespace Lexeme

/-- Whether a character can stand in a literal. -/
def isNumeral (c : Char) : Bool := c.isDigit || c == '.'

/-- The operator or parenthesis that a character writes. -/
def ofSymbol? (c : Char) : Option Lexeme :=
  if c = '(' then
    some opening
  else if c = ')' then
    some closing
  else
    (Operator.ofSymbol? c).map operator

/-- What has been read, as far as it bears on the next character. -/
inductive State where
  /-- An operand is expected. -/
  | expecting
  /-- An operand is expected, and a minus sign stands before it. -/
  | signed
  /-- A literal is being read; its last character comes first. -/
  | reading (negative : Bool) (reversed : List Char)
  /-- An operand has been read. -/
  | complete
  deriving DecidableEq, Repr

namespace State

/-- The lexeme that ends when something else than a digit or point follows.  A minus sign without a
literal is a subtraction. -/
def pending : State → List Lexeme
  | expecting => []
  | signed => [.operator .subtract]
  | reading negative reversed => [.literal negative reversed.reverse]
  | complete => []

/-- Whether an operand stands before the next character. -/
def hasOperand : State → Bool
  | expecting => false
  | signed => false
  | reading _ _ => true
  | complete => true

/-- The state after a further digit or point. -/
def extend : State → Char → State
  | expecting, c => reading false [c]
  | signed, c => reading true [c]
  | reading negative reversed, c => reading negative (c :: reversed)
  | complete, c => reading false [c]

/-- The state that leaves the next character to itself: whether an operand stands before it is all
that counts. -/
def settled (hasOperand : Bool) : State := if hasOperand then complete else expecting

/-- Read one character: the lexemes that end with it or before it, and the state after it. -/
def step (state : State) (c : Char) : List Lexeme × State :=
  if isNumeral c then
    ([], state.extend c)
  else if c = '-' then
    if state.hasOperand then
      (state.pending ++ [.operator .subtract], expecting)
    else
      (state.pending, signed)
  else
    match ofSymbol? c with
    | some lexeme => (state.pending ++ [lexeme], settled (lexeme = .closing))
    | none => (state.pending ++ [.ignored c], settled state.hasOperand)

end State

/-- The lexemes of a text, read on from a state. -/
def scanFrom : State → List Char → List Lexeme
  | state, [] => state.pending
  | state, c :: rest => (state.step c).1 ++ scanFrom (state.step c).2 rest

/-- The state in which a text leaves the reading. -/
def stateAfter : State → List Char → State
  | state, [] => state
  | state, c :: rest => stateAfter (state.step c).2 rest

/-- The lexemes that are complete when a text has been read. -/
def emitted : State → List Char → List Lexeme
  | _, [] => []
  | state, c :: rest => (state.step c).1 ++ emitted (state.step c).2 rest

/-- A text can be cut at any place: what has been read before the cut counts only by its state. -/
theorem scanFrom_append (state : State) (before after : List Char) :
    scanFrom state (before ++ after) =
      emitted state before ++ scanFrom (stateAfter state before) after := by
  induction before generalizing state with
  | nil => rfl
  | cons c rest induction => simp [scanFrom, emitted, stateAfter, induction]

/-- The lexemes of a text. -/
def scan (text : List Char) : List Lexeme := scanFrom .expecting text

end Lexeme
end DeskCalculator
