import DeskCalculator.Evaluation
import DeskCalculator.Proofs.Token.Lexemes

/-!
# The items of an expression

What comes out of a step, together with what still waits, is a rearrangement of the items that were
there, hence so it is for a whole arrangement.  If every token is marked with its own number of
operands, then so is every item.
-/

namespace DeskCalculator

namespace Item

/-- Whether the first item is a number. -/
def beginsWithNumber : List Item → Bool
  | number _ :: _ => true
  | _ => false

theorem beginsWithNumber_append {front : List Item} (begins : beginsWithNumber front)
    (back : List Item) : beginsWithNumber (front ++ back) := by
  cases front with
  | nil => simp [beginsWithNumber] at begins
  | cons item front =>
      cases item with
      | number x => rfl
      | operator op arity => simp [beginsWithNumber] at begins

theorem beginsWithNumber_of_append {front back : List Item} (nonempty : front ≠ [])
    (begins : beginsWithNumber (front ++ back)) : beginsWithNumber front := by
  cases front with
  | nil => exact absurd rfl nonempty
  | cons item front => cases item <;> exact begins

theorem exists_number_cons {items : List Item} (begins : beginsWithNumber items) :
    ∃ value rest, items = .number value :: rest := by
  cases items with
  | nil => simp [beginsWithNumber] at begins
  | cons item rest =>
      cases item with
      | number value => exact ⟨value, rest, rfl⟩
      | operator op arity => simp [beginsWithNumber] at begins

/-- Whether an operator is marked with a number of operands that it can take: the root with one, the
percent sign with one or two, and every other operator with two. -/
def isMarked : Item → Bool
  | number _ => true
  | operator .root arity => arity == 1
  | operator .percent arity => arity == 1 || arity == 2
  | operator _ arity => arity == 2

theorem applies_of_isMarked [Arithmetic] {op : Operator} {arity : Int}
    (marked : isMarked (.operator op arity)) :
    (arity = 1 ∧ ∀ a, ∃ value, op.applyUnary a = .ok value) ∨
      (arity = 2 ∧ ∀ a b, ∃ value, op.applyBinary a b = .ok value) := by
  cases op <;> simp_all [isMarked, Operator.applyUnary, Operator.unary?, Operator.applyBinary,
    Operator.binary?]

end Item

namespace Postfix

open scoped List

/-! ## Items of roles and of the stack -/

/-- The items that a role brings out in the end. -/
def Role.items : Role → List Item
  | operand value => [.number value]
  | leading op arity => [.operator op arity]
  | between op arity => [.operator op arity]
  | trailing => [.operator .percent 1]
  | opening => []
  | closing => []

/-- The items that wait on the stack, in the order in which they leave it. -/
def held : List Waiting → List Item
  | [] => []
  | .operator op arity :: below => .operator op arity :: held below
  | .opening :: below => held below

theorem value_drain (stack : List Waiting) : (drain stack).value = held stack := by
  induction stack with
  | nil => rfl
  | cons entry below induction =>
      cases entry with
      | operator op arity => simp [drain, held, induction]
      | opening => simpa [drain, held] using induction

theorem release_append_held (condition : Operator → Bool) (stack : List Waiting) :
    (release condition stack).1 ++ held (release condition stack).2 = held stack := by
  induction stack with
  | nil => rfl
  | cons entry below induction =>
      cases entry with
      | opening => rfl
      | operator op arity =>
          by_cases met : condition op
          · simpa [release, met, held] using induction
          · simp [release, met, held]

theorem held_tail_release_all (stack : List Waiting) :
    held (release (fun _ => true) stack).2.tail = held (release (fun _ => true) stack).2 := by
  induction stack with
  | nil => rfl
  | cons entry below induction =>
      cases entry with
      | opening => rfl
      | operator op arity => simpa [release] using induction

/-- A closing parenthesis takes the opening one that it meets with it, if it meets one. -/
theorem value_step_closing (stack : List Waiting) :
    (step stack .closing).value =
      ((release (fun _ => true) stack).1, (release (fun _ => true) stack).2.tail) := by
  rw [step]
  split
  next items entry below taken => simp [taken]
  next items taken => simp [taken]

/-- Reading a role neither loses nor invents an item. -/
theorem perm_step (stack : List Waiting) (role : Role) :
    (step stack role).value.1 ++ held (step stack role).value.2 ~ role.items ++ held stack := by
  cases role with
  | operand value => exact .refl _
  | leading op arity => exact .refl _
  | trailing => exact .refl _
  | opening => exact .refl _
  | between op arity =>
      have kept := release_append_held (fun waiting => op.precedence ≤ waiting.precedence) stack
      rw [← kept]
      exact List.perm_middle
  | closing =>
      have kept := release_append_held (fun _ => true) stack
      rw [value_step_closing, held_tail_release_all, kept]
      exact .refl _

/-! ## Items of tokens -/

theorem role_cases (rest : List Token) (token : Token) :
    match role rest token with
    | .operand value => token = .number value
    | .leading op arity => token = .operator op arity ∧ op = .root
    | .between op arity => token = .operator op arity ∧ op ≠ .root
    | .trailing => ∃ arity, token = .operator .percent arity ∧ beginsOperand rest = false
    | .opening => token = .opening
    | .closing => token = .closing := by
  cases token with
  | operator op arity =>
      cases op with
      | percent => cases behind : beginsOperand rest <;> simp [role, behind]
      | _ => simp [role]
  | _ => simp [role]

/-- The items that tokens bring out, read on from a stack, and behind them those that wait. -/
def translateFrom (stack : List Waiting) (tokens : List Token) : List Item :=
  (arrange stack (roles tokens)).value.1 ++ held (arrange stack (roles tokens)).value.2

theorem value_ofTokens (tokens : List Token) :
    (ofTokens tokens).value = translateFrom [] tokens := by
  simp [ofTokens, translateFrom, value_drain]

theorem translateFrom_cons (stack : List Waiting) (token : Token) (rest : List Token) :
    translateFrom stack (token :: rest) =
      (step stack (role rest token)).value.1 ++
        translateFrom (step stack (role rest token)).value.2 rest := by
  simp [translateFrom, roles, value_arrange_cons]

theorem perm_translateFrom (stack : List Waiting) (tokens : List Token) :
    translateFrom stack tokens ~ (roles tokens).flatMap Role.items ++ held stack := by
  induction tokens generalizing stack with
  | nil => exact .refl _
  | cons token rest induction =>
      have stepped := perm_step stack (role rest token)
      have later := induction (step stack (role rest token)).value.2
      rw [translateFrom_cons, roles, List.flatMap_cons, List.append_assoc]
      set after := step stack (role rest token)
      set others := (roles rest).flatMap Role.items
      calc
        after.value.1 ++ translateFrom after.value.2 rest
            ~ after.value.1 ++ (others ++ held after.value.2) := later.append_left _
        _ ~ others ++ (after.value.1 ++ held after.value.2) := List.perm_append_comm_assoc ..
        _ ~ others ++ ((role rest token).items ++ held stack) := stepped.append_left _
        _ ~ (role rest token).items ++ (others ++ held stack) := List.perm_append_comm_assoc ..

/-- The items of an expression are those that its tokens stand for, in another order. -/
theorem perm_ofTokens (tokens : List Token) :
    (ofTokens tokens).value ~ (roles tokens).flatMap Role.items := by
  have whole := perm_translateFrom [] tokens
  rwa [held, List.append_nil, ← value_ofTokens] at whole

theorem mem_ofTokens_iff {tokens : List Token} {item : Item} : item ∈ (ofTokens tokens).value ↔
    ∃ front token rest, tokens = front ++ token :: rest ∧ item ∈ (role rest token).items := by
  rw [(perm_ofTokens tokens).mem_iff]
  induction tokens with
  | nil => simp [roles]
  | cons first others induction =>
      rw [roles, List.flatMap_cons, List.mem_append, induction]
      constructor
      · rintro (member | ⟨front, token, rest, rfl, member⟩)
        · exact ⟨[], first, others, rfl, member⟩
        · exact ⟨first :: front, token, rest, rfl, member⟩
      · rintro ⟨front, token, rest, split, member⟩
        cases front with
        | nil =>
            obtain ⟨rfl, rfl⟩ := List.cons.inj split
            exact Or.inl member
        | cons _ front =>
            obtain ⟨rfl, rfl⟩ := List.cons.inj split
            exact Or.inr ⟨front, token, rest, rfl, member⟩

/-! ## Marks -/

/-- An operator stands for itself; a percent sign without an operand behind it takes one operand. -/
theorem items_role_operator (rest : List Token) (op : Operator) (arity : Int) :
    (role rest (.operator op arity)).items =
      [.operator op (if op = .percent ∧ beginsOperand rest = false then 1 else arity)] := by
  cases op with
  | percent => cases behind : beginsOperand rest <;> simp [role, Role.items, behind]
  | _ => rfl

theorem isMarked_of_mem_items_role {token : Token} (plain : token.isPlain) {rest : List Token}
    {item : Item} (member : item ∈ (role rest token).items) : item.isMarked := by
  cases token with
  | number value =>
      obtain rfl := List.mem_singleton.mp member
      rfl
  | opening => exact absurd member List.not_mem_nil
  | closing => exact absurd member List.not_mem_nil
  | operator op arity =>
      obtain rfl : arity = op.arity := by simpa [Token.isPlain] using plain
      rw [items_role_operator] at member
      obtain rfl := List.mem_singleton.mp member
      cases op with
      | percent => split <;> rfl
      | _ => rfl

theorem isMarked_of_mem_ofTokens {tokens : List Token}
    (plain : ∀ token ∈ tokens, token.isPlain) {item : Item}
    (member : item ∈ (ofTokens tokens).value) : item.isMarked := by
  obtain ⟨front, token, rest, rfl, stands⟩ := mem_ofTokens_iff.mp member
  exact isMarked_of_mem_items_role (plain token (by simp)) stands

/-- Every operator of a text is marked as it must be. -/
theorem isMarked_of_ofSource {source : String} {tokens : List Token}
    (read : (Token.ofSource source).value = .ok tokens) :
    ∀ item ∈ (ofTokens tokens).value, item.isMarked := by
  have plain := Token.isPlain_of_ofLexemes (Token.value_ofSource_eq_ok_iff.mp read)
  exact fun item => isMarked_of_mem_ofTokens plain

end Postfix
end DeskCalculator
