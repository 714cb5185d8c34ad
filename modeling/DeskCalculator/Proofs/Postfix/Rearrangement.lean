import DeskCalculator.Proofs.Postfix.Items
import DeskCalculator.Proofs.Token.Balance

/-!
# Postfix notation as a rearrangement

The items of an expression are its tokens without the parentheses, in another order, and only a
percent sign changes its number of operands.  The numbers keep their order, since a number passes
the stack, where only operators and parentheses wait.
-/

namespace DeskCalculator

namespace Token

/-- Whether an operand begins with a token. -/
def startsOperand : Token → Bool
  | number _ => true
  | opening => true
  | operator op _ => op == .root
  | closing => false

/-- A token in front of another one or of none.  A percent sign takes one operand unless an operand
begins behind it. -/
def settled (next : Option Token) : Token → Token
  | operator .percent arity => operator .percent (if next.any startsOperand then arity else 1)
  | token => token

/-- Tokens with the number of operands that each percent sign takes. -/
def settle (tokens : List Token) : List Token :=
  tokens.mapIdx fun index token => token.settled tokens[index + 1]?

theorem settle_cons (token : Token) (rest : List Token) :
    settle (token :: rest) = token.settled rest.head? :: settle rest := by
  rw [settle, List.mapIdx_cons, List.head?_eq_getElem?]
  rfl

end Token

namespace Postfix

open scoped List
open Token (settle)

theorem beginsOperand_eq (rest : List Token) :
    beginsOperand rest = rest.head?.any Token.startsOperand := by
  cases rest with
  | nil => rfl
  | cons token rest =>
      cases token with
      | operator op arity => cases op <;> rfl
      | _ => rfl

/-! ## Tokens for items -/

/-- The role of a token brings out the token itself, settled, unless it is a parenthesis. -/
theorem toTokens_items_role (rest : List Token) (token : Token) :
    (role rest token).items.map Item.toToken =
      [token.settled rest.head?].filter (!·.isParenthesis) := by
  cases token with
  | operator op arity =>
      rw [items_role_operator, beginsOperand_eq]
      cases op with
      | percent => cases behind : rest.head?.any Token.startsOperand <;>
          simp [Token.settled, behind, Item.toToken, Token.isParenthesis]
      | _ => rfl
  | _ => rfl

theorem toTokens_items_roles (tokens : List Token) :
    ((roles tokens).flatMap Role.items).map Item.toToken =
      (settle tokens).filter (!·.isParenthesis) := by
  induction tokens with
  | nil => rfl
  | cons token rest induction =>
      rw [roles, List.flatMap_cons, List.map_append, induction, toTokens_items_role,
        Token.settle_cons, ← List.filter_append]
      rfl

/-! ## Numbers -/

/-- The numbers among items. -/
def numbers (items : List Item) : List Token := (items.map Item.toToken).filter Token.isNumber

theorem numbers_append (front back : List Item) :
    numbers (front ++ back) = numbers front ++ numbers back := by
  rw [numbers, List.map_append, List.filter_append]
  rfl

theorem numbers_held (stack : List Waiting) : numbers (held stack) = [] := by
  induction stack with
  | nil => rfl
  | cons entry below induction => cases entry <;> exact induction

theorem numbers_release (condition : Operator → Bool) (stack : List Waiting) :
    numbers (release condition stack).1 = [] := by
  have kept := congrArg numbers (release_append_held condition stack)
  rw [numbers_append, numbers_held, numbers_held, List.append_nil] at kept
  exact kept

theorem numbers_step (stack : List Waiting) (role : Role) :
    numbers (step stack role).value.1 = numbers role.items := by
  cases role with
  | between op arity => exact numbers_release _ stack
  | closing =>
      rw [value_step_closing]
      exact numbers_release _ stack
  | _ => rfl

theorem numbers_items_role (rest : List Token) (token : Token) :
    numbers (role rest token).items = [token].filter Token.isNumber := by
  cases token with
  | operator op arity =>
      rw [items_role_operator]
      rfl
  | _ => rfl

theorem numbers_translateFrom (stack : List Waiting) (tokens : List Token) :
    numbers (translateFrom stack tokens) = tokens.filter Token.isNumber := by
  induction tokens generalizing stack with
  | nil => exact numbers_held stack
  | cons token rest induction =>
      rw [translateFrom_cons, numbers_append, induction, numbers_step, numbers_items_role,
        ← List.filter_append]
      rfl

/--
Nothing is lost, doubled or invented on the way to postfix notation, whether parentheses are
balanced or not: the items are the tokens without the parentheses, in another order.  Every token
is kept as it is but for a percent sign without an operand behind it, which takes one operand.  The
numbers keep their order.
-/
theorem ofTokens_rearrangement (tokens : List Token) :
    (ofTokens tokens).value.map Item.toToken ~ (settle tokens).filter (!·.isParenthesis) ∧
      ((ofTokens tokens).value.map Item.toToken).filter Token.isNumber =
        tokens.filter Token.isNumber := by
  constructor
  · rw [← toTokens_items_roles]
    exact (perm_ofTokens tokens).map Item.toToken
  · rw [value_ofTokens]
    exact numbers_translateFrom [] tokens

end Postfix
end DeskCalculator
