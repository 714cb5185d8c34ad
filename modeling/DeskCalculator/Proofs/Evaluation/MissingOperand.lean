import DeskCalculator.Proofs.Evaluation.LastOperand
import DeskCalculator.Proofs.Token.Pairs

/-!
# Missing operands

An expression lacks an operand if an operator comes out before the first number.  Until then the
stack holds what has been read, but for empty pairs of parentheses and leading closing ones, and no
operator on it is cut off by the next entry.
-/

namespace DeskCalculator

namespace Token

/-- Whether a token is an operator. -/
def isOperator : Token → Bool
  | operator _ _ => true
  | _ => false

/-- The tokens before the first number, all of them if there is none. -/
def beforeNumber (tokens : List Token) : List Token := tokens.takeWhile (!·.isNumber)

/-- Whether an operator is cut off from its right operand by the token behind it: by a closing
parenthesis, or by an operator between two operands that does not hold stronger. -/
def isCutOff : Token → Token → Bool
  | operator _ _, closing => true
  | operator op _, operator next _ => next != .root && next.precedence ≤ op.precedence
  | _, _ => false

/-- No operator is cut off by the token behind it. -/
def Holds (tokens : List Token) : Prop :=
  tokens.IsChain fun token next => token.isCutOff next = false

instance (tokens : List Token) : Decidable (Holds tokens) :=
  inferInstanceAs (Decidable (tokens.IsChain _))

theorem not_holds_iff {tokens : List Token} : ¬ Holds tokens ↔
    ∃ front token next back, tokens = front ++ token :: next :: back ∧ token.isCutOff next := by
  simp only [Holds, List.isChain_iff_forall_rel_of_append_cons_cons]
  push Not
  constructor
  · rintro ⟨token, next, front, back, split, cut⟩
    exact ⟨front, token, next, back, split, by simpa using cut⟩
  · rintro ⟨front, token, next, back, split, cut⟩
    exact ⟨token, next, front, back, split, by simpa using cut⟩

theorem exists_operator_of_not_holds {tokens : List Token} (cut : ¬ Holds tokens) :
    ∃ token ∈ tokens, token.isOperator := by
  obtain ⟨front, token, next, back, rfl, before⟩ := not_holds_iff.mp cut
  refine ⟨token, by simp, ?_⟩
  cases token with
  | operator op arity => rfl
  | _ => simp [isCutOff] at before

theorem holds_closing_cons {tokens : List Token} : Holds (.closing :: tokens) ↔ Holds tokens := by
  cases tokens <;> simp [Holds, isCutOff]

/-- An operator that is cut off stays so when pairs of parentheses are deleted. -/
theorem not_holds_of_isCutOff {token next : Token} (cut : token.isCutOff next)
    (front back : List Token) : ¬ Holds (withoutPairs (front ++ token :: next :: back)) := by
  cases token with
  | operator op arity =>
      have stays : next ≠ .opening := by
        rintro rfl
        simp [isCutOff] at cut
      rw [withoutPairs_append_operator, withoutPairs_cons_of_ne stays, not_holds_iff]
      exact ⟨_, _, _, _, rfl, cut⟩
  | _ => simp [isCutOff] at cut

end Token

namespace Postfix

open Token (Holds withoutPairs beforeNumber)

/-- The token that waits. -/
def Waiting.token : Waiting → Token
  | operator op arity => .operator op arity
  | opening => .opening

/-- The tokens that wait, in the order in which they have been read. -/
def waitingTokens (stack : List Waiting) : List Token := (stack.map Waiting.token).reverse

theorem waitingTokens_nil : waitingTokens [] = [] := rfl

theorem waitingTokens_cons (entry : Waiting) (stack : List Waiting) :
    waitingTokens (entry :: stack) = waitingTokens stack ++ [entry.token] := by
  simp [waitingTokens]

theorem closing_not_mem_waitingTokens (stack : List Waiting) :
    .closing ∉ waitingTokens stack := by
  intro member
  obtain ⟨entry, _, shown⟩ := List.mem_map.mp (List.mem_reverse.mp member)
  cases entry <;> simp [Waiting.token] at shown

theorem holds_waitingTokens_cons {entry : Waiting} {stack : List Waiting}
    (holds : Holds (waitingTokens stack))
    (joins : ∀ top ∈ stack.head?, top.token.isCutOff entry.token = false) :
    Holds (waitingTokens (entry :: stack)) := by
  cases stack with
  | nil => exact List.isChain_singleton _
  | cons top below =>
      have joined := joins top rfl
      rw [waitingTokens_cons] at holds ⊢
      rw [waitingTokens_cons, List.append_assoc]
      exact List.isChain_append_cons_cons.mpr ⟨holds, joined, List.isChain_singleton _⟩

theorem role_eq_trailing_iff {rest : List Token} {token : Token} : role rest token = .trailing ↔
    ∃ arity, token = .operator .percent arity ∧ beginsOperand rest = false := by
  constructor
  · intro trailing
    have shown := role_cases rest token
    rwa [trailing] at shown
  · rintro ⟨arity, rfl, behind⟩
    simp [role, behind]

/-- A token before the first number waits: nothing comes out, and the stack goes on to hold what has
been read. -/
structure Waits (stack : List Waiting) (token : Token) (after : List Item × List Waiting) :
    Prop where
  /-- Nothing comes out. -/
  quiet : after.1 = []
  /-- No operator on the stack is cut off. -/
  holds : Holds (waitingTokens after.2)
  /-- The stack stands for the token as well. -/
  same : ∀ later, Holds (withoutPairs (waitingTokens stack ++ token :: later)) ↔
    Holds (withoutPairs (waitingTokens after.2 ++ later))

/-- A token before the first number lets an operator out, which it cuts off. -/
structure Releases (stack : List Waiting) (token : Token) (after : List Item × List Waiting) :
    Prop where
  /-- An operator comes out first. -/
  released : ∃ op arity items, after.1 = .operator op arity :: items
  /-- An operator is cut off, whatever follows. -/
  cut : ∀ later, ¬ Holds (withoutPairs (waitingTokens stack ++ token :: later))

theorem Waits.push {stack : List Waiting} (entry : Waiting) (holds : Holds (waitingTokens stack))
    (joins : ∀ top ∈ stack.head?, top.token.isCutOff entry.token = false) :
    Waits stack entry.token ([], entry :: stack) where
  quiet := rfl
  holds := holds_waitingTokens_cons holds joins
  same later := by simp [waitingTokens_cons]

theorem Releases.top {op : Operator} {arity : Int} {below : List Waiting} {token : Token}
    (cut : (Token.operator op arity).isCutOff token) (condition : Operator → Bool)
    (met : condition op) (stack : List Waiting) :
    Releases (.operator op arity :: below) token
      ((release condition (.operator op arity :: below)).1, stack) where
  released := ⟨op, arity, (release condition below).1, by simp [release, met]⟩
  cut later := by
    rw [waitingTokens_cons, List.append_assoc]
    exact Token.not_holds_of_isCutOff cut (waitingTokens below) later

/-- An operator between two operands waits, or it cuts off the operator on top. -/
theorem step_between {stack : List Waiting} (holds : Holds (waitingTokens stack)) {op : Operator}
    (other : op ≠ .root) (arity : Int) :
    Waits stack (.operator op arity) (step stack (.between op arity)).value ∨
      Releases stack (.operator op arity) (step stack (.between op arity)).value := by
  cases stack with
  | nil => exact Or.inl (.push (.operator op arity) holds (by simp))
  | cons top below =>
      cases top with
      | opening =>
          refine Or.inl (.push (.operator op arity) holds ?_)
          rintro _ ⟨⟩
          rfl
      | operator before before_arity =>
          by_cases weaker : op.precedence ≤ before.precedence
          · have cut : (Token.operator before before_arity).isCutOff (.operator op arity) := by
              simp [Token.isCutOff, other, weaker]
            exact Or.inr (.top cut (fun waiting => op.precedence ≤ waiting.precedence)
              (by simpa using weaker) _)
          · have waits : Waits (.operator before before_arity :: below) (.operator op arity)
                ([], .operator op arity :: .operator before before_arity :: below) := by
              refine .push (.operator op arity) holds ?_
              rintro _ ⟨⟩
              simp [Waiting.token, Token.isCutOff, weaker]
            refine Or.inl ?_
            simpa [step, release, weaker] using waits

/-- A closing parenthesis vanishes with the opening one on top, stays in front of all else, or cuts
off the operator on top. -/
theorem step_closing {stack : List Waiting} (holds : Holds (waitingTokens stack)) :
    Waits stack .closing (step stack .closing).value ∨
      Releases stack .closing (step stack .closing).value := by
  rw [value_step_closing]
  cases stack with
  | nil =>
      refine Or.inl ⟨rfl, holds, fun later => ?_⟩
      rw [waitingTokens_nil, List.nil_append, Token.withoutPairs_cons_of_ne (by simp)]
      exact Token.holds_closing_cons
  | cons top below =>
      rw [waitingTokens_cons] at holds
      cases top with
      | opening =>
          refine Or.inl ⟨rfl, holds.left_of_append, fun later => ?_⟩
          rw [waitingTokens_cons, List.append_assoc]
          exact iff_of_eq (congrArg Holds (Token.withoutPairs_of_deletes (.delete _ later)))
      | operator op arity => exact Or.inr (.top rfl (fun _ => true) rfl _)

/-- A token before the first number waits or cuts an operator off, unless it is a percent sign
without an operand behind it. -/
theorem step_cases {stack : List Waiting} (holds : Holds (waitingTokens stack))
    {rest : List Token} {token : Token} (before : token.isNumber = false)
    (behind : role rest token ≠ .trailing) :
    Waits stack token (step stack (role rest token)).value ∨
      Releases stack token (step stack (role rest token)).value := by
  have shown := role_cases rest token
  cases read : role rest token with
  | operand value =>
      rw [read] at shown
      subst shown
      simp [Token.isNumber] at before
  | trailing => exact absurd read behind
  | leading op arity =>
      rw [read] at shown
      obtain ⟨rfl, rfl⟩ := shown
      refine Or.inl (.push (.operator .root arity) holds ?_)
      intro top _
      cases top <;> rfl
  | opening =>
      rw [read] at shown
      subst shown
      refine Or.inl (.push .opening holds ?_)
      intro top _
      cases top <;> rfl
  | between op arity =>
      rw [read] at shown
      obtain ⟨rfl, other⟩ := shown
      exact step_between holds other arity
  | closing =>
      rw [read] at shown
      subst shown
      exact step_closing holds

/-! ## The first item -/

/-- Before the first number there is a percent sign without an operand behind it. -/
def HasLoosePercent (tokens : List Token) : Prop :=
  ∃ before arity after, tokens = before ++ .operator .percent arity :: after ∧
    (∀ token ∈ before, token.isNumber = false) ∧ beginsOperand after = false

theorem hasLoosePercent_cons {token : Token} (before : token.isNumber = false)
    {rest : List Token} :
    HasLoosePercent (token :: rest) ↔ role rest token = .trailing ∨ HasLoosePercent rest := by
  rw [role_eq_trailing_iff]
  constructor
  · rintro ⟨front, arity, after, split, numberless, behind⟩
    cases front with
    | nil =>
        obtain ⟨rfl, rfl⟩ := List.cons.inj split
        exact Or.inl ⟨arity, rfl, behind⟩
    | cons first front =>
        obtain ⟨rfl, rfl⟩ := List.cons.inj split
        exact Or.inr ⟨front, arity, after, rfl,
          fun other member => numberless other (List.mem_cons_of_mem _ member), behind⟩
  · rintro (⟨arity, rfl, behind⟩ | ⟨front, arity, after, rfl, numberless, behind⟩)
    · exact ⟨[], arity, rest, rfl, by simp, behind⟩
    · exact ⟨token :: front, arity, after, rfl, by simpa [before] using numberless, behind⟩

theorem not_hasLoosePercent_number (value : Float) (rest : List Token) :
    ¬ HasLoosePercent (.number value :: rest) := by
  rintro ⟨before, arity, after, split, numberless, _⟩
  cases before with
  | nil => simp at split
  | cons first before =>
      obtain ⟨rfl, _⟩ := List.cons.inj split
      exact absurd (numberless _ List.mem_cons_self) (by simp [Token.isNumber])

/-- A text with a number gives an operator first, exactly if there is a loose percent sign before
the number or an operator is cut off in what has been read. -/
theorem beginsWithNumber_translateFrom_iff {stack : List Waiting}
    (holds : Holds (waitingTokens stack)) {tokens : List Token}
    (numbered : ∃ token ∈ tokens, token.isNumber) :
    Item.beginsWithNumber (translateFrom stack tokens) ↔
      ¬ HasLoosePercent tokens ∧
        Holds (withoutPairs (waitingTokens stack ++ beforeNumber tokens)) := by
  induction tokens generalizing stack with
  | nil => simp at numbered
  | cons token rest induction =>
      rw [translateFrom_cons]
      cases isNumber : token.isNumber with
      | true =>
          obtain ⟨value, rfl⟩ := Token.exists_number isNumber
          have quiet := Token.withoutPairs_of_no_closing (closing_not_mem_waitingTokens stack)
          simp [role, step, Item.beginsWithNumber, not_hasLoosePercent_number, beforeNumber,
            Token.isNumber, quiet, holds]
      | false =>
          have later : ∃ token ∈ rest, token.isNumber := by simpa [isNumber] using numbered
          have next : beforeNumber (token :: rest) = token :: beforeNumber rest := by
            simp [beforeNumber, isNumber]
          rw [hasLoosePercent_cons isNumber, next]
          by_cases behind : role rest token = .trailing
          · simp [behind, step, Item.beginsWithNumber]
          · rcases step_cases holds isNumber behind with waits | releases
            · rw [waits.quiet, List.nil_append, induction waits.holds later, waits.same]
              simp [behind]
            · obtain ⟨op, arity, items, released⟩ := releases.released
              rw [released]
              simp [Item.beginsWithNumber, releases.cut]

theorem not_beginsWithNumber_ofTokens {tokens : List Token}
    (numberless : ∀ token ∈ tokens, token.isNumber = false) :
    ¬ Item.beginsWithNumber (ofTokens tokens).value := by
  intro begins
  obtain ⟨value, rest, shown⟩ := Item.exists_number_cons begins
  have member : .number value ∈ (ofTokens tokens).value := by
    rw [shown]
    exact List.mem_cons_self
  obtain ⟨front, token, rest, rfl, stands⟩ := mem_ofTokens_iff.mp member
  have other := numberless token (by simp)
  cases token with
  | number value => simp [Token.isNumber] at other
  | operator op arity => simp [items_role_operator] at stands
  | _ => simp [role, Role.items] at stands

theorem ofTokens_ne_nil_iff {tokens : List Token} : (ofTokens tokens).value ≠ [] ↔
    ∃ token ∈ tokens, token.isNumber ∨ token.isOperator := by
  constructor
  · intro nonempty
    obtain ⟨item, member⟩ := List.exists_mem_of_ne_nil _ nonempty
    obtain ⟨front, token, rest, rfl, stands⟩ := mem_ofTokens_iff.mp member
    refine ⟨token, by simp, ?_⟩
    cases token <;> simp_all [role, Role.items, Token.isNumber, Token.isOperator]
  · rintro ⟨token, member, shown⟩
    obtain ⟨front, rest, rfl⟩ := List.append_of_mem member
    have stands : ∃ item, item ∈ (role rest token).items := by
      cases token with
      | number value => exact ⟨.number value, List.mem_singleton_self _⟩
      | operator op arity => exact ⟨_, by rw [items_role_operator]; exact List.mem_singleton_self _⟩
      | _ => simp [Token.isNumber, Token.isOperator] at shown
    obtain ⟨item, stands⟩ := stands
    exact List.ne_nil_of_mem (mem_ofTokens_iff.mpr ⟨front, token, rest, rfl, stands⟩)

end Postfix

namespace Evaluation

open Token (Holds)

section

variable [Arithmetic]

theorem exists_missingOperand_iff_of_numberless {source : String} {tokens : List Token}
    (read : (Token.ofSource source).value = .ok tokens)
    (numberless : ∀ token ∈ tokens, token.isNumber = false) (expression : Option String) :
    (∃ op, (ofTokens tokens expression).value = .error ⟨.missingOperand op, expression⟩) ↔
      ∃ token ∈ tokens, token.isOperator := by
  rw [value_ofTokens, exists_missingOperand_iff (Postfix.isMarked_of_ofSource read),
    Postfix.ofTokens_ne_nil_iff,
    and_iff_left (Postfix.not_beginsWithNumber_ofTokens numberless)]
  constructor
  · rintro ⟨token, member, isNumber | isOperator⟩
    · simp [numberless token member] at isNumber
    · exact ⟨token, member, isOperator⟩
  · rintro ⟨token, member, isOperator⟩
    exact ⟨token, member, Or.inr isOperator⟩

theorem exists_missingOperand_iff_of_numbered {source : String} {tokens : List Token}
    (read : (Token.ofSource source).value = .ok tokens)
    (numbered : ∃ token ∈ tokens, token.isNumber) (expression : Option String) :
    (∃ op, (ofTokens tokens expression).value = .error ⟨.missingOperand op, expression⟩) ↔
      Postfix.HasLoosePercent tokens ∨
        ¬ Holds (Token.withoutPairs (Token.beforeNumber tokens)) := by
  obtain ⟨token, member, isNumber⟩ := numbered
  have nonempty := Postfix.ofTokens_ne_nil_iff.mpr ⟨token, member, Or.inl isNumber⟩
  have begins : Item.beginsWithNumber (Postfix.ofTokens tokens).value ↔
      ¬ Postfix.HasLoosePercent tokens ∧
        Holds (Token.withoutPairs (Token.beforeNumber tokens)) := by
    have empty : Holds (Postfix.waitingTokens []) := List.isChain_nil
    rw [Postfix.value_ofTokens]
    exact Postfix.beginsWithNumber_translateFrom_iff empty ⟨token, member, isNumber⟩
  rw [value_ofTokens, exists_missingOperand_iff (Postfix.isMarked_of_ofSource read),
    and_iff_right nonempty, begins]
  tauto

/--
Which texts lack an operand.  They are those that have operators but no number, those with a percent
sign before the first number that has no operand behind it, and those where an operator before the
first number is cut off from what is behind it once the parentheses with nothing between them are
deleted.  Every other text has a value.
-/
theorem value_ofTokens_missingOperand_iff {source : String} {tokens cleared : List Token}
    (read : (Token.ofSource source).value = .ok tokens)
    (clears : Token.Clears (Token.beforeNumber tokens) cleared) (expression : Option String) :
    ((∃ op, (ofTokens tokens expression).value = .error ⟨.missingOperand op, expression⟩) ↔
        ((∀ token ∈ tokens, token.isNumber = false) ∧ ∃ token ∈ tokens, token.isOperator) ∨
        Postfix.HasLoosePercent tokens ∨
        ∃ front token next back, cleared = front ++ token :: next :: back ∧ token.isCutOff next) ∧
      ((∃ op, (ofTokens tokens expression).value = .error ⟨.missingOperand op, expression⟩) ∨
        ∃ value, (ofTokens tokens expression).value = .ok value) := by
  constructor
  · obtain rfl := Token.clears_iff.mp clears
    rw [← Token.not_holds_iff]
    by_cases numbered : ∃ token ∈ tokens, token.isNumber
    · rw [exists_missingOperand_iff_of_numbered read numbered expression]
      obtain ⟨token, member, isNumber⟩ := numbered
      have some_number : ¬ ∀ token ∈ tokens, token.isNumber = false := by
        intro numberless
        simp [numberless token member] at isNumber
      exact (or_iff_right fun lacks => some_number lacks.1).symm
    · have numberless : ∀ token ∈ tokens, token.isNumber = false := by simpa using numbered
      rw [exists_missingOperand_iff_of_numberless read numberless expression]
      constructor
      · exact fun operators => Or.inl ⟨numberless, operators⟩
      · rintro (⟨_, operators⟩ | ⟨before, arity, after, rfl, _⟩ | cut)
        · exact operators
        · exact ⟨.operator .percent arity, by simp, rfl⟩
        · obtain ⟨token, member, isOperator⟩ := Token.exists_operator_of_not_holds cut
          have listed := Token.mem_of_mem_withoutPairs member
          exact ⟨token, List.takeWhile_subset _ listed, isOperator⟩
  · rw [value_ofTokens]
    exact missingOperand_or_exists_value (Postfix.isMarked_of_ofSource read) expression

end

/-- In `*()+5` the sum cuts the product off, but in `+()*5` the product holds stronger than the
sum. -/
theorem value_ofTokens_product_behind_sum :
    (∃ op, (ofTokens [.operator .multiply 2, .opening, .closing, .operator .add 2,
        .number 5] (some "*()+5")).value = .error ⟨.missingOperand op, some "*()+5"⟩) ∧
      ∃ value, (ofTokens [.operator .add 2, .opening, .closing, .operator .multiply 2,
        .number 5] none).value = .ok value := by
  let sum_last : List Token :=
    [.operator .multiply 2, .opening, .closing, .operator .add 2, .number 5]
  let product_last : List Token :=
    [.operator .add 2, .opening, .closing, .operator .multiply 2, .number 5]
  have reads_sum : (Token.ofSource "*()+5").value = .ok sum_last := rfl
  have reads_product : (Token.ofSource "+()*5").value = .ok product_last := rfl
  have clears_sum : Token.Clears (Token.beforeNumber sum_last)
      [.operator .multiply 2, .operator .add 2] := Token.clears_iff.mpr rfl
  have clears_product : Token.Clears (Token.beforeNumber product_last)
      [.operator .add 2, .operator .multiply 2] := Token.clears_iff.mpr rfl
  constructor
  · have lacks := (value_ofTokens_missingOperand_iff reads_sum clears_sum (some "*()+5")).1
    refine lacks.mpr (Or.inr (Or.inr ?_))
    exact ⟨[], .operator .multiply 2, .operator .add 2, [], rfl, rfl⟩
  · have cases := value_ofTokens_missingOperand_iff reads_product clears_product none
    refine cases.2.resolve_left ?_
    rw [cases.1, ← Token.not_holds_iff]
    rintro (⟨numberless, _⟩ | ⟨before, arity, after, split, _⟩ | cut)
    · exact absurd (numberless (.number 5) (by simp [product_last])) (by simp [Token.isNumber])
    · have percent : Token.operator .percent arity ∈ product_last := by simp [split]
      simp [product_last] at percent
    · exact cut (by decide)

end Evaluation
end DeskCalculator
