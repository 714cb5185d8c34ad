import DeskCalculator.Proofs.Token.Pairs

/-!
# Balanced parentheses

Tokens are balanced if every parenthesis in them has its partner.  They are so exactly if their
parentheses vanish when pairs with nothing between them are deleted; what is left otherwise are the
parentheses without a partner.
-/

namespace DeskCalculator
namespace Token

/-- Whether a token is a parenthesis. -/
def isParenthesis : Token → Bool
  | opening => true
  | closing => true
  | _ => false

/-- The parentheses among tokens. -/
def parentheses (tokens : List Token) : List Token := tokens.filter isParenthesis

@[simp]
theorem parentheses_opening (rest : List Token) :
    parentheses (.opening :: rest) = .opening :: parentheses rest := rfl

@[simp]
theorem parentheses_closing (rest : List Token) :
    parentheses (.closing :: rest) = .closing :: parentheses rest := rfl

theorem parentheses_cons {token : Token} (other : token.isParenthesis = false)
    (rest : List Token) : parentheses (token :: rest) = parentheses rest := by
  simp [parentheses, other]

@[simp]
theorem parentheses_append (front back : List Token) :
    parentheses (front ++ back) = parentheses front ++ parentheses back :=
  List.filter_append front back

/-- Every parenthesis has its partner. -/
inductive Balanced : List Token → Prop where
  | nil : Balanced []
  | cons {token : Token} {rest : List Token} :
      token.isParenthesis = false → Balanced rest → Balanced (token :: rest)
  | group {inner rest : List Token} :
      Balanced inner → Balanced rest → Balanced (.opening :: inner ++ .closing :: rest)

/-- Tokens that are balanced but for closing parentheses of a given number. -/
inductive Closes : Nat → List Token → Prop where
  | last {tokens : List Token} : Balanced tokens → Closes 0 tokens
  | next {count : Nat} {front rest : List Token} :
      Balanced front → Closes count rest → Closes (count + 1) (front ++ .closing :: rest)

namespace Closes

variable {count : Nat} {rest : List Token}

theorem cons {token : Token} (other : token.isParenthesis = false) (closes : Closes count rest) :
    Closes count (token :: rest) := by
  cases closes with
  | last balanced => exact .last (.cons other balanced)
  | next balanced later => exact .next (.cons other balanced) later

theorem opening (closes : Closes (count + 1) rest) : Closes count (.opening :: rest) := by
  cases closes with
  | next inner later =>
      cases later with
      | last balanced => exact .last (.group inner balanced)
      | @next _ front others balanced later =>
          have grouped := Closes.next (.group inner balanced) later
          rwa [List.append_assoc] at grouped

/-- What is left of the parentheses, if these are closing ones only, are those without a
partner. -/
theorem of_withoutPairs {tokens : List Token} (left :
    withoutPairs (parentheses tokens) = List.replicate count .closing) : Closes count tokens := by
  induction tokens generalizing count with
  | nil =>
      have none_left : count = 0 := by
        simpa [parentheses, withoutPairs] using (congrArg List.length left).symm
      subst none_left
      exact .last .nil
  | cons token rest induction =>
      cases token with
      | closing =>
          rw [parentheses_closing, withoutPairs_cons_of_ne (by simp)] at left
          cases count with
          | zero => simp at left
          | succ count =>
              obtain ⟨-, later⟩ := List.cons.inj left
              exact .next .nil (induction later)
      | opening =>
          -- If the opening parenthesis stayed, it would be among the closing ones that are left.
          rw [parentheses_opening, withoutPairs_cons] at left
          apply opening
          apply induction
          rcases place_cases .opening (withoutPairs (parentheses rest)) with
            ⟨-, placed⟩ | ⟨others, -, shown, placed⟩
          · rw [placed] at left
            have stays : Token.opening ∈ List.replicate count Token.closing := by
              rw [← left]
              exact List.mem_cons_self
            simp at stays
          · rw [shown, ← placed, left]
            rfl
      | _ => exact cons rfl (induction left)

end Closes

/-- Tokens are balanced exactly if their parentheses vanish with their partners. -/
theorem balanced_iff {tokens : List Token} :
    Balanced tokens ↔ withoutPairs (parentheses tokens) = [] := by
  constructor
  · intro balanced
    induction balanced with
    | nil => rfl
    | cons other _ induction => rwa [parentheses_cons other]
    | group _ _ inner_vanishes rest_vanishes =>
        rw [List.cons_append, parentheses_opening, parentheses_append, parentheses_closing,
          withoutPairs_cons, withoutPairs_append_of_eq_nil inner_vanishes,
          withoutPairs_cons_of_ne (by simp), rest_vanishes]
        rfl
  · intro vanishes
    have closes : Closes 0 tokens := Closes.of_withoutPairs vanishes
    cases closes with
    | last balanced => exact balanced

/-! ## Parentheses without a partner -/

/-- The parentheses without a partner in tokens behind a number of opening parentheses. -/
def unpairedBehind (opened : Nat) (tokens : List Token) : List Token :=
  withoutPairs (List.replicate opened .opening ++ parentheses tokens)

theorem unpairedBehind_nil (opened : Nat) :
    unpairedBehind opened [] = List.replicate opened .opening := by
  have open_only : Token.closing ∉ List.replicate opened Token.opening := by simp
  have shown : List.replicate opened Token.opening ++ parentheses [] =
      List.replicate opened .opening := List.append_nil _
  rw [unpairedBehind, shown, withoutPairs_of_no_closing open_only]

theorem unpairedBehind_opening (opened : Nat) (rest : List Token) :
    unpairedBehind opened (.opening :: rest) = unpairedBehind (opened + 1) rest := by
  rw [unpairedBehind, unpairedBehind, parentheses_opening, List.replicate_succ',
    List.append_assoc]
  rfl

theorem unpairedBehind_zero_closing (rest : List Token) :
    unpairedBehind 0 (.closing :: rest) = .closing :: unpairedBehind 0 rest :=
  withoutPairs_cons_of_ne (by simp) _

theorem unpairedBehind_succ_closing (opened : Nat) (rest : List Token) :
    unpairedBehind (opened + 1) (.closing :: rest) = unpairedBehind opened rest := by
  rw [unpairedBehind, unpairedBehind, parentheses_closing, List.replicate_succ',
    List.append_assoc]
  exact withoutPairs_of_deletes (.delete _ _)

theorem unpairedBehind_cons {token : Token} (other : token.isParenthesis = false) (opened : Nat)
    (rest : List Token) : unpairedBehind opened (token :: rest) = unpairedBehind opened rest := by
  rw [unpairedBehind, unpairedBehind, parentheses_cons other]

end Token
end DeskCalculator
