import DeskCalculator.Proofs.Grammar.Ordering
import DeskCalculator.Proofs.Postfix.Parentheses

/-!
# Groups in parentheses

Tokens with balanced parentheses never look below the opening parenthesis in front of them.  The
closing one behind them calls what they leave waiting, so a group in parentheses comes out as one
block, translated as if alone, and leaves the stack as a number would.
-/

namespace DeskCalculator
namespace Postfix

open Token (Balanced parentheses withoutPairs)

/-! ## Above a floor -/

theorem release_floor {floor : List Waiting} (bare : Shields 0 floor)
    (condition : Operator → Bool) : release condition floor = ([], floor) := by
  cases floor with
  | nil => rfl
  | cons entry below =>
      cases entry with
      | operator op arity => exact absurd bare (Nat.not_lt_zero _)
      | opening => rfl

/-- Operators are taken off down to the floor at most, whatever it is. -/
theorem exists_release_above (condition : Operator → Bool) (pending : List (Operator × Int)) :
    ∃ out left, ∀ floor, Shields 0 floor →
      release condition (waiting pending ++ floor) = (out, waiting left ++ floor) := by
  induction pending with
  | nil => exact ⟨[], [], fun floor bare => release_floor bare condition⟩
  | cons entry pending induction =>
      obtain ⟨op, arity⟩ := entry
      by_cases met : condition op
      · obtain ⟨out, left, taken⟩ := induction
        refine ⟨.operator op arity :: out, left, fun floor bare => ?_⟩
        have later := taken floor bare
        simp only [waiting] at later
        simp [waiting, release, met, later]
      · exact ⟨[], (op, arity) :: pending, fun floor bare => by simp [waiting, release, met]⟩

theorem exists_step_above {token : Token} (other : token.isParenthesis = false)
    (rest : List Token) (pending : List (Operator × Int)) :
    ∃ out left, ∀ floor, Shields 0 floor →
      step (waiting pending ++ floor) (role rest token) = pure (out, waiting left ++ floor) := by
  have read := role_cases rest token
  cases found : role rest token with
  | operand value => exact ⟨[.number value], pending, fun floor bare => rfl⟩
  | leading op arity => exact ⟨[], (op, arity) :: pending, fun floor bare => rfl⟩
  | trailing => exact ⟨[.operator .percent 1], pending, fun floor bare => rfl⟩
  | between op arity =>
      obtain ⟨out, left, taken⟩ :=
        exists_release_above (fun waiting => op.precedence ≤ waiting.precedence) pending
      refine ⟨out, (op, arity) :: left, fun floor bare => ?_⟩
      simp only [step, taken floor bare]
      rfl
  | opening =>
      rw [found] at read
      simp [read, Token.isParenthesis] at other
  | closing =>
      rw [found] at read
      simp [read, Token.isParenthesis] at other

theorem arrange_append (stack : List Waiting) (front back : List Role) :
    arrange stack (front ++ back) = (do
      let (out, after) ← arrange stack front
      before out (arrange after back)) := by
  induction front generalizing stack with
  | nil => simp [arrange, before]
  | cons role rest induction => simp [arrange, before, induction, List.append_assoc]

/-- A group whose tokens are read above any floor brings out their items, those that wait among
them at its end, and leaves the stack as it was. -/
theorem arrange_group_of_above {inner : List Token} {out : List Item}
    {left : List (Operator × Int)} (above : ∀ floor, Shields 0 floor →
      arrange floor (roles inner) = pure (out, waiting left ++ floor))
    (stack : List Waiting) (rest : List Token) :
    arrange stack (roles (.opening :: inner ++ .closing :: rest)) =
      before (out ++ released left) (arrange stack (roles rest)) := by
  -- The opening parenthesis is the floor of the group.
  have inside := above (.opening :: stack) trivial
  have closed := arrange_closing left stack rest
  rw [List.cons_append, arrange_opening, roles_append inner rfl, arrange_append, inside, pure_bind]
  simp only [closed, before_before, List.nil_append]

theorem exists_arrange_above {tokens : List Token} (balanced : Balanced tokens)
    (pending : List (Operator × Int)) :
    ∃ out left, ∀ floor, Shields 0 floor →
      arrange (waiting pending ++ floor) (roles tokens) = pure (out, waiting left ++ floor) := by
  induction balanced generalizing pending with
  | nil => exact ⟨[], pending, fun floor bare => rfl⟩
  | @cons token rest other _ induction =>
      obtain ⟨first, middle, stepped⟩ := exists_step_above other rest pending
      obtain ⟨out, left, arranged⟩ := induction middle
      refine ⟨first ++ out, left, fun floor bare => ?_⟩
      rw [roles, arrange_cons _ (stepped floor bare), arranged floor bare]
      rfl
  | group _ _ inner_induction induction =>
      obtain ⟨first, middle, above⟩ := inner_induction []
      obtain ⟨out, left, arranged⟩ := induction pending
      refine ⟨first ++ released middle ++ out, left, fun floor bare => ?_⟩
      rw [arrange_group_of_above above, arranged floor bare]
      rfl

theorem arrange_group {inner : List Token} (balanced : Balanced inner) (stack : List Waiting)
    (rest : List Token) :
    arrange stack (roles (.opening :: inner ++ .closing :: rest)) =
      before (ofTokens inner).value (arrange stack (roles rest)) := by
  obtain ⟨out, left, above⟩ := exists_arrange_above balanced []
  have alone : (ofTokens inner).value = out ++ released left := by
    have arranged : arrange [] (roles inner) = pure (out, waiting left ++ []) := above [] trivial
    rw [ofTokens, arranged]
    simp [drain_waiting]
  rw [arrange_group_of_above above, alone]

/-! ## A group for a number -/

/-- The items that have come out when tokens in front of given ones have been read. -/
def outputBefore (rest front : List Token) : List Item :=
  (arrange [] (rolesBefore rest front)).value.1

/-- The stack when tokens in front of given ones have been read. -/
def stackBefore (rest front : List Token) : List Waiting :=
  (arrange [] (rolesBefore rest front)).value.2

theorem value_ofTokens_append (front rest : List Token) :
    (ofTokens (front ++ rest)).value =
      outputBefore rest front ++ translateFrom (stackBefore rest front) rest := by
  rw [value_ofTokens, translateFrom, roles_append_eq, value_arrange_append, List.append_assoc]
  rfl

theorem translateFrom_group {inner : List Token} (balanced : Balanced inner)
    (stack : List Waiting) (rest : List Token) :
    translateFrom stack (.opening :: inner ++ .closing :: rest) =
      (ofTokens inner).value ++ translateFrom stack rest := by
  rw [translateFrom, arrange_group balanced]
  exact List.append_assoc ..

/-- A group without parentheses that lack a partner leaves none in what surrounds it. -/
theorem withoutPairs_parentheses_group (front back : List Token) {inner : List Token}
    (balanced : Balanced inner) :
    withoutPairs (parentheses (front ++ .opening :: inner ++ .closing :: back)) =
      withoutPairs (parentheses (front ++ back)) := by
  have grouped : Balanced (.opening :: inner ++ [.closing]) := .group balanced .nil
  have split :
      .opening :: inner ++ .closing :: back = (.opening :: inner ++ [.closing]) ++ back := by
    simp
  rw [List.append_assoc, split, Token.parentheses_append, Token.parentheses_append,
    Token.parentheses_append front back, withoutPairs, List.foldr_append, ← withoutPairs,
    Token.withoutPairs_append_of_eq_nil (Token.balanced_iff.mp grouped), withoutPairs,
    withoutPairs, List.foldr_append]

/--
A group in parentheses can stand for a number.  It is translated as if alone, and its items stand
together in the place of the number: in front of them what had come out when the number was read,
and behind them what came out behind the number.  The same notices are made.
-/
theorem ofTokens_group (front back : List Token) (x : Float) {inner : List Token}
    (balanced : Balanced inner) :
    let first := outputBefore (.number x :: back) front
    ∃ later, (ofTokens (front ++ .number x :: back)).value = first ++ .number x :: later ∧
      (ofTokens (front ++ .opening :: inner ++ .closing :: back)).value =
        first ++ (ofTokens inner).value ++ later ∧
      (ofTokens (front ++ .opening :: inner ++ .closing :: back)).notices =
        (ofTokens (front ++ .number x :: back)).notices := by
  intro first
  -- A number and an opening parenthesis are the same for the tokens in front of them.
  have follows : beginsOperand (.opening :: inner ++ .closing :: back) =
      beginsOperand (.number x :: back) := rfl
  have same := rolesBefore_congr follows front
  refine ⟨translateFrom (stackBefore (.number x :: back) front) back, ?_, ?_, ?_⟩
  · rw [value_ofTokens_append, translateFrom_cons]
    rfl
  · rw [List.append_assoc, value_ofTokens_append, outputBefore, stackBefore, same,
      translateFrom_group balanced, List.append_assoc]
    rfl
  · rw [notices_ofTokens, notices_ofTokens, withoutPairs_parentheses_group front back balanced,
      Token.parentheses_append, Token.parentheses_append]
    rfl

/-- In `2*√9%)+4` the group `(+3^()%)` stands for the `9`. -/
theorem ofTokens_root_of_group :
    let front : List Token := [.number 2, .operator .multiply 2, .operator .root 1]
    let inner : List Token := [.operator .add 2, .number 3, .operator .power 2, .opening, .closing,
      .operator .percent 2]
    let back : List Token := [.operator .percent 2, .closing, .operator .add 2, .number 4]
    Balanced inner ∧
      (ofTokens (front ++ .number 9 :: back)).value = [.number 2, .number 9, .operator .percent 1,
        .operator .root 1, .operator .multiply 2, .number 4, .operator .add 2] ∧
      (ofTokens (front ++ .opening :: inner ++ .closing :: back)).value =
        [.number 2] ++ (ofTokens inner).value ++ [.operator .percent 1, .operator .root 1,
          .operator .multiply 2, .number 4, .operator .add 2] := by
  intro front inner back
  have balanced : Balanced inner := Token.balanced_iff.mpr rfl
  obtain ⟨later, whole, grouped, -⟩ := ofTokens_group front back 9 balanced
  have first : outputBefore (.number 9 :: back) front = [.number 2] := rfl
  rw [first] at whole grouped
  obtain rfl : [.operator .percent 1, .operator .root 1, .operator .multiply 2, .number 4,
      .operator .add 2] = later := (List.cons.inj (List.cons.inj whole).2).2
  exact ⟨balanced, whole, grouped⟩

end Postfix
end DeskCalculator
