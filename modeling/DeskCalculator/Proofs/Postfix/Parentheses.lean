import DeskCalculator.Proofs.Evaluation.LastOperand
import DeskCalculator.Proofs.Postfix.Items
import DeskCalculator.Proofs.Token.Balance

/-!
# Parentheses without a partner

A stack with opening parentheses at its bottom brings out the same items as the stack without them,
and what a closing parenthesis without a partner brings out early comes next anyway.  So parentheses
around an expression make no difference but to the notices, which count those without a partner.
-/

namespace DeskCalculator
namespace Postfix

open Token (Balanced parentheses unpairedBehind withoutPairs)

/-! ## Roles in front of other tokens -/

/-- The roles of tokens in front of given ones. -/
def rolesBefore (rest : List Token) : List Token → List Role
  | [] => []
  | token :: front => role (front ++ rest) token :: rolesBefore rest front

theorem roles_append_eq (front rest : List Token) :
    roles (front ++ rest) = rolesBefore rest front ++ roles rest := by
  induction front with
  | nil => rfl
  | cons token front induction => exact congrArg (_ :: ·) induction

/-- All that counts for a role is whether an operand follows. -/
theorem role_congr {rest other : List Token} (same : beginsOperand rest = beginsOperand other)
    (token : Token) : role rest token = role other token := by
  cases token with
  | operator op arity => cases op <;> simp [role, same]
  | _ => rfl

theorem rolesBefore_congr {rest other : List Token}
    (same : beginsOperand rest = beginsOperand other) (front : List Token) :
    rolesBefore rest front = rolesBefore other front := by
  induction front with
  | nil => rfl
  | cons token front induction =>
      have begins : beginsOperand (front ++ rest) = beginsOperand (front ++ other) := by
        cases front with
        | nil => exact same
        | cons next others =>
            cases next with
            | operator op arity => cases op <;> rfl
            | _ => rfl
      rw [rolesBefore, rolesBefore, role_congr begins, induction]

/-- The roles of tokens do not depend on what follows, if this begins no operand. -/
theorem roles_append (front : List Token) {back : List Token}
    (separate : beginsOperand back = false) :
    roles (front ++ back) = roles front ++ roles back := by
  have alone : roles front = rolesBefore [] front := by
    simpa [roles] using roles_append_eq front []
  have nothing_follows : beginsOperand back = beginsOperand [] := separate
  rw [roles_append_eq, rolesBefore_congr nothing_follows, alone]

/-! ## Closing parentheses behind tokens -/

theorem translateFrom_closings (count : Nat) (stack : List Waiting) :
    translateFrom stack (List.replicate count .closing) = held stack := by
  induction count generalizing stack with
  | zero => rfl
  | succ count induction =>
      have closes (rest : List Token) : role rest .closing = .closing := rfl
      rw [List.replicate_succ, translateFrom_cons, closes, induction, value_step_closing,
        held_tail_release_all, release_append_held]

theorem translateFrom_append_closings (stack : List Waiting) (tokens : List Token) (count : Nat) :
    translateFrom stack (tokens ++ List.replicate count .closing) = translateFrom stack tokens := by
  have separate : beginsOperand (List.replicate count Token.closing) = false := by
    cases count <;> rfl
  have closed := translateFrom_closings count (arrange stack (roles tokens)).value.2
  rw [translateFrom, roles_append tokens separate, value_arrange_append, translateFrom,
    List.append_assoc]
  exact congrArg _ closed

/-! ## Opening parentheses at the bottom of the stack -/

/-- Opening parentheses as entries of the stack. -/
def openings (count : Nat) : List Waiting := List.replicate count .opening

theorem held_append_openings (stack : List Waiting) (count : Nat) :
    held (stack ++ openings count) = held stack := by
  induction stack with
  | nil =>
      induction count with
      | zero => rfl
      | succ count induction => exact induction
  | cons entry below induction =>
      cases entry with
      | operator op arity => exact congrArg (Item.operator op arity :: ·) induction
      | opening => exact induction

theorem release_append_openings (condition : Operator → Bool) (stack : List Waiting)
    (count : Nat) :
    release condition (stack ++ openings count) =
      ((release condition stack).1, (release condition stack).2 ++ openings count) := by
  induction stack with
  | nil => cases count <;> rfl
  | cons entry below induction =>
      cases entry with
      | opening => rfl
      | operator op arity =>
          by_cases met : condition op
          · simp [release, met, induction]
          · simp [release, met]

/-- With opening parentheses at the bottom of the stack, a role brings out the same items and leaves
the same stack, with opening parentheses at its bottom. -/
theorem exists_step_append_openings (stack : List Waiting) (role : Role) (count : Nat) :
    ∃ left, (step (stack ++ openings count) role).value =
      ((step stack role).value.1, (step stack role).value.2 ++ openings left) := by
  cases role with
  | between op arity =>
      refine ⟨count, ?_⟩
      simp [step, release_append_openings]
  | closing =>
      rw [value_step_closing, value_step_closing, release_append_openings]
      cases (release (fun _ => true) stack).2 with
      | nil => exact ⟨count - 1, by simp [openings]⟩
      | cons entry below => exact ⟨count, rfl⟩
  | _ => exact ⟨count, rfl⟩

theorem translateFrom_append_openings (stack : List Waiting) (count : Nat) (tokens : List Token) :
    translateFrom (stack ++ openings count) tokens = translateFrom stack tokens := by
  -- A closing parenthesis may take one from the bottom, so their number varies on the way.
  induction tokens generalizing stack count with
  | nil => exact held_append_openings stack count
  | cons token rest induction =>
      obtain ⟨left, stepped⟩ := exists_step_append_openings stack (role rest token) count
      rw [translateFrom_cons, translateFrom_cons, stepped, induction]

theorem translateFrom_openings_append (count : Nat) (tokens : List Token) :
    translateFrom [] (List.replicate count .opening ++ tokens) = translateFrom [] tokens := by
  induction count with
  | zero => rfl
  | succ count induction =>
      rw [List.replicate_succ, List.cons_append, translateFrom_cons]
      exact (translateFrom_append_openings [] 1 _).trans induction

theorem value_ofTokens_surrounded (opened closed : Nat) (tokens : List Token) :
    (ofTokens (List.replicate opened .opening ++ tokens ++ List.replicate closed .closing)).value =
      (ofTokens tokens).value := by
  rw [value_ofTokens, value_ofTokens, translateFrom_append_closings,
    translateFrom_openings_append]

/-! ## Notices -/

theorem notices_drain (stack : List Waiting) :
    (drain stack).notices = List.replicate (stack.count .opening) .unclosed := by
  induction stack with
  | nil => rfl
  | cons entry below induction =>
      cases entry with
      | operator op arity => simpa [drain] using induction
      | opening => simp [drain, induction, List.replicate_succ]

theorem count_release (condition : Operator → Bool) (stack : List Waiting) :
    (release condition stack).2.count .opening = stack.count .opening := by
  induction stack with
  | nil => rfl
  | cons entry below induction =>
      cases entry with
      | opening => rfl
      | operator op arity =>
          by_cases met : condition op
          · simpa [release, met] using induction
          · simp [release, met]

theorem release_all_cases (stack : List Waiting) :
    ∃ items, release (fun _ => true) stack = (items, []) ∨
      ∃ below, release (fun _ => true) stack = (items, .opening :: below) := by
  induction stack with
  | nil => exact ⟨[], Or.inl rfl⟩
  | cons entry below induction =>
      cases entry with
      | opening => exact ⟨[], Or.inr ⟨below, rfl⟩⟩
      | operator op arity =>
          obtain ⟨items, bottom | ⟨others, met⟩⟩ := induction
          · exact ⟨.operator op arity :: items, Or.inl (by simp [release, bottom])⟩
          · exact ⟨.operator op arity :: items, Or.inr ⟨others, by simp [release, met]⟩⟩

/-- A closing parenthesis is noted if no opening one waits, and meets its partner otherwise. -/
theorem step_closing_cases (stack : List Waiting) :
    (stack.count .opening = 0 ∧ (step stack .closing).notices = [.unopened] ∧
        (step stack .closing).value.2.count .opening = 0) ∨
      ∃ count, stack.count .opening = count + 1 ∧ (step stack .closing).notices = [] ∧
        (step stack .closing).value.2.count .opening = count := by
  have kept := count_release (fun _ => true) stack
  obtain ⟨items, bottom | ⟨below, met⟩⟩ := release_all_cases stack
  · rw [bottom] at kept
    exact Or.inl ⟨kept.symm, by simp [step, bottom], by simp [step, bottom]⟩
  · rw [met, List.count_cons_self] at kept
    exact Or.inr ⟨below.count .opening, kept.symm, by simp [step, met], by simp [step, met]⟩

theorem step_of_not_parenthesis {token : Token} (other : token.isParenthesis = false)
    (rest : List Token) (stack : List Waiting) :
    (step stack (role rest token)).notices = [] ∧
      (step stack (role rest token)).value.2.count .opening = stack.count .opening := by
  have operator (op : Operator) (arity : Int) :
      Waiting.operator op arity ≠ .opening := by simp
  cases read : role rest token with
  | between op arity =>
      refine ⟨rfl, ?_⟩
      simp only [step, Traced.value_pure]
      rw [List.count_cons_of_ne (operator op arity), count_release]
  | leading op arity => exact ⟨rfl, List.count_cons_of_ne (operator op arity)⟩
  | operand value => exact ⟨rfl, rfl⟩
  | trailing => exact ⟨rfl, rfl⟩
  | opening =>
      obtain rfl : token = .opening := by simpa [read] using role_cases rest token
      simp [Token.isParenthesis] at other
  | closing =>
      obtain rfl : token = .closing := by simpa [read] using role_cases rest token
      simp [Token.isParenthesis] at other

/-- What is left of the parentheses that wait and those of the tokens, when partners are deleted,
tells how many notices are made and how many parentheses still wait. -/
theorem notices_arrange (stack : List Waiting) (tokens : List Token) :
    (arrange stack (roles tokens)).notices = List.replicate
        ((unpairedBehind (stack.count .opening) tokens).count .closing) .unopened ∧
      (arrange stack (roles tokens)).value.2.count .opening =
        (unpairedBehind (stack.count .opening) tokens).count .opening := by
  induction tokens generalizing stack with
  | nil =>
      rw [Token.unpairedBehind_nil]
      simp [roles, arrange, List.count_replicate]
  | cons token rest induction =>
      have later := induction (step stack (role rest token)).value.2
      rw [roles, notices_arrange_cons, value_arrange_cons]
      have of_not_parenthesis (other : token.isParenthesis = false) :
          (step stack (role rest token)).notices ++
              (arrange (step stack (role rest token)).value.2 (roles rest)).notices =
              List.replicate ((unpairedBehind (stack.count .opening) (token :: rest)).count
                .closing) .unopened ∧
            (arrange (step stack (role rest token)).value.2 (roles rest)).value.2.count .opening =
              (unpairedBehind (stack.count .opening) (token :: rest)).count .opening := by
        obtain ⟨quiet, kept⟩ := step_of_not_parenthesis other rest stack
        rw [kept] at later
        rw [quiet, Token.unpairedBehind_cons other]
        exact later
      cases token with
      | opening =>
          have waits : (step stack (role rest .opening)).value.2.count .opening =
              stack.count .opening + 1 := List.count_cons_self
          rw [waits] at later
          rw [Token.unpairedBehind_opening]
          exact later
      | closing =>
          have closes : role rest .closing = .closing := rfl
          rw [closes] at later ⊢
          rcases step_closing_cases stack with
            ⟨none_waits, noted, none_left⟩ | ⟨count, waits, quiet, left⟩
          -- Without an opening parenthesis, the whole stack is brought out, and the reading starts
          -- afresh.
          · rw [none_left] at later
            rw [none_waits, noted, Token.unpairedBehind_zero_closing, later.1,
              List.count_cons_self, List.count_cons_of_ne (by simp)]
            exact ⟨rfl, later.2⟩
          · rw [left] at later
            rw [waits, quiet, Token.unpairedBehind_succ_closing]
            exact later
      | number value => exact of_not_parenthesis rfl
      | operator op arity => exact of_not_parenthesis rfl

theorem notices_ofTokens (tokens : List Token) :
    (ofTokens tokens).notices =
      List.replicate ((withoutPairs (parentheses tokens)).count .closing) .unopened ++
        List.replicate ((withoutPairs (parentheses tokens)).count .opening) .unclosed := by
  obtain ⟨noted, waiting⟩ := notices_arrange [] tokens
  simp [ofTokens, noted, notices_drain, waiting, unpairedBehind]

theorem notices_ofTokens_eq_nil_iff (tokens : List Token) :
    (ofTokens tokens).notices = [] ↔ Balanced tokens := by
  rw [notices_ofTokens, Token.balanced_iff]
  simp only [List.append_eq_nil_iff, List.replicate_eq_nil_iff, List.count_eq_zero]
  constructor
  · rintro ⟨no_closing, no_opening⟩
    refine List.eq_nil_iff_forall_not_mem.mpr fun token member => ?_
    have parenthesis := (List.mem_filter.mp (Token.mem_of_mem_withoutPairs member)).2
    cases token with
    | opening => exact no_opening member
    | closing => exact no_closing member
    | _ => simp [Token.isParenthesis] at parenthesis
  · intro vanishes
    simp [vanishes]

/-- Parentheses around an expression change neither its items nor its value.  In the expression,
every parenthesis that has no partner when pairs are deleted is noted, and nothing else is, so that
nothing is noted exactly if the parentheses are balanced. -/
theorem ofTokens_unpaired [Arithmetic] (opened closed : Nat) (tokens : List Token)
    (expression : Option String) :
    let surrounded :=
      List.replicate opened .opening ++ tokens ++ List.replicate closed .closing
    (ofTokens surrounded).value = (ofTokens tokens).value ∧
      (Evaluation.ofTokens surrounded expression).value =
        (Evaluation.ofTokens tokens expression).value ∧
      (∃ unpaired, (∀ left, Token.Clears (parentheses tokens) left ↔ left = unpaired) ∧
        (ofTokens tokens).notices =
          List.replicate (unpaired.count .closing) .unopened ++
            List.replicate (unpaired.count .opening) .unclosed) ∧
      ((ofTokens tokens).notices = [] ↔ Balanced tokens) := by
  have items := value_ofTokens_surrounded opened closed tokens
  refine ⟨items, ?_, ?_, notices_ofTokens_eq_nil_iff tokens⟩
  · rw [Evaluation.value_ofTokens, Evaluation.value_ofTokens, items]
  · exact ⟨withoutPairs (parentheses tokens), fun _ => Token.clears_iff, notices_ofTokens tokens⟩

end Postfix
end DeskCalculator
