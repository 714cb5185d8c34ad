import DeskCalculator.Traced

/-!
# From tokens to postfix notation

Tokens are reordered with a stack of the operators and opening parentheses that still wait.  Whether
a percent sign stands between two operands depends on the token behind it; `roles` settles this
first, so that the reordering itself, `arrange`, can be cut at any place.
-/

namespace DeskCalculator
namespace Postfix

/-- What a token does to the operators that wait. -/
inductive Role where
  /-- A number passes them. -/
  | operand (value : Float)
  /-- An operator before its operand joins them. -/
  | leading (op : Operator) (arity : Int)
  /-- An operator between two operands joins them after those that hold the left one. -/
  | between (op : Operator) (arity : Int)
  /-- A percent sign after its operand passes them. -/
  | trailing
  /-- An opening parenthesis shields them. -/
  | opening
  /-- A closing parenthesis calls those in front of the opening one. -/
  | closing
  deriving DecidableEq

/-- Whether an operand begins a list of tokens. -/
def beginsOperand : List Token → Bool
  | .number _ :: _ => true
  | .opening :: _ => true
  | .operator .root _ :: _ => true
  | _ => false

/-- The role of a token before the given ones. -/
def role (rest : List Token) : Token → Role
  | .number value => .operand value
  | .opening => .opening
  | .closing => .closing
  | .operator .root arity => .leading .root arity
  | .operator .percent arity =>
      if beginsOperand rest then .between .percent arity else .trailing
  | .operator op arity => .between op arity

/-- The roles of a list of tokens. -/
def roles : List Token → List Role
  | [] => []
  | token :: rest => role rest token :: roles rest

/-! ## The operators that wait -/

/-- An entry of the stack. -/
inductive Waiting where
  /-- An operator whose last operand is not complete. -/
  | operator (op : Operator) (arity : Int)
  /-- An opening parenthesis whose closing one has not come. -/
  | opening
  deriving DecidableEq

/-- Take operators off the stack while they meet a condition, down to an opening parenthesis at
most. -/
def release (condition : Operator → Bool) : List Waiting → List Item × List Waiting
  | .operator op arity :: below =>
      if condition op then
        let (items, rest) := release condition below
        (.operator op arity :: items, rest)
      else
        ([], .operator op arity :: below)
  | stack => ([], stack)

/-- Read one role: the items it brings out, and the stack after it. -/
def step (stack : List Waiting) : Role → Traced (List Item × List Waiting)
  | .operand value => return ([.number value], stack)
  | .leading op arity => return ([], .operator op arity :: stack)
  | .between op arity =>
      let (items, rest) := release (fun waiting => op.precedence ≤ waiting.precedence) stack
      return (items, .operator op arity :: rest)
  | .trailing => return ([.operator .percent 1], stack)
  | .opening => return ([], .opening :: stack)
  | .closing =>
      match release (fun _ => true) stack with
      | (items, _ :: below) => return (items, below)
      | (items, []) => do
          Traced.note .unopened
          return (items, [])

/-- Read a list of roles: the items they bring out, and the stack after them. -/
def arrange : List Waiting → List Role → Traced (List Item × List Waiting)
  | stack, [] => return ([], stack)
  | stack, role :: rest => do
      let (items, stack) ← step stack role
      let (later, stack) ← arrange stack rest
      return (items ++ later, stack)

theorem value_arrange_cons (stack : List Waiting) (role : Role) (rest : List Role) :
    (arrange stack (role :: rest)).value =
      ((step stack role).value.1 ++ (arrange (step stack role).value.2 rest).value.1,
        (arrange (step stack role).value.2 rest).value.2) := rfl

theorem notices_arrange_cons (stack : List Waiting) (role : Role) (rest : List Role) :
    (arrange stack (role :: rest)).notices =
      (step stack role).notices ++ (arrange (step stack role).value.2 rest).notices := by
  simp [arrange]

/-- Roles can be read in two parts: the first part counts for the second only by its stack. -/
theorem value_arrange_append (stack : List Waiting) (before after : List Role) :
    (arrange stack (before ++ after)).value =
      ((arrange stack before).value.1 ++
          (arrange (arrange stack before).value.2 after).value.1,
        (arrange (arrange stack before).value.2 after).value.2) := by
  induction before generalizing stack with
  | nil => rfl
  | cons role rest induction =>
      simp [value_arrange_cons, induction, List.append_assoc]

/-- Empty the stack at the end of an expression. -/
def drain : List Waiting → Traced (List Item)
  | [] => return []
  | .operator op arity :: below => do
      let items ← drain below
      return .operator op arity :: items
  | .opening :: below => do
      Traced.note .unclosed
      drain below

/-- The tokens of an expression in postfix notation. -/
def ofTokens (tokens : List Token) : Traced (List Item) := do
  let (items, stack) ← arrange [] (roles tokens)
  let rest ← drain stack
  return items ++ rest

end Postfix
end DeskCalculator
