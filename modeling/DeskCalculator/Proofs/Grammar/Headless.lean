import DeskCalculator.Proofs.Grammar.Context
import DeskCalculator.Proofs.Postfix.Items

/-!
# Operators without a left operand

An operator that opens a pair of parentheses takes the value that was read last for its left
operand, wherever that stands, and zero only if nothing was read before.  The central theorem
compares this with a zero written before the operator, in any context.
-/

namespace DeskCalculator

namespace Expression

/-- The items of an operator and a phrase behind it, without the left operand of the operator.  The
operators of the phrase that hold no stronger are applied after it. -/
def itemsBehind (op : Operator) : {level : Category} → Expression level → List Item
  | _, binary other _ _ left right =>
      if other.precedence ≤ op.precedence then
        left.itemsBehind op ++ right.items ++ [.operator other other.arity]
      else
        left.items ++ right.items ++ [.operator other other.arity, .operator op op.arity]
  | _, lift _ inner => inner.itemsBehind op
  | _, phrase => phrase.items ++ [.operator op op.arity]

/-- The value of an operator and a phrase behind it, for a left operand of the operator. -/
def valueBehind [Arithmetic] {op : Operator} {outer : Category}
    (makes : op.category? = some outer) : {level : Category} → Expression level → Float → Float
  | _, binary other others _ left right, operand =>
      if other.precedence ≤ op.precedence then
        other.between others (left.valueBehind makes operand) right.value
      else
        op.between makes operand (other.between others left.value right.value)
  | _, lift _ inner, operand => inner.valueBehind makes operand
  | _, phrase, operand => op.between makes operand phrase.value

open Evaluation (reduce)

theorem reduce_items_operator [Arithmetic] {op : Operator} {outer : Category}
    (makes : op.category? = some outer) {level : Category} (phrase : Expression level)
    (operand : Float) (values : List Float) (rest : List Item) :
    reduce (operand :: values) (phrase.items ++ [.operator op op.arity] ++ rest) =
      reduce (op.between makes operand phrase.value :: values) rest := by
  rw [List.append_assoc, phrase.reduce_items]
  exact Evaluation.reduce_binary makes operand phrase.value values rest

theorem reduce_itemsBehind [Arithmetic] {op : Operator} {outer : Category}
    (makes : op.category? = some outer) {level : Category} (phrase : Expression level)
    (operand : Float) (values : List Float) (rest : List Item) :
    reduce (operand :: values) (phrase.itemsBehind op ++ rest) =
      reduce (phrase.valueBehind makes operand :: values) rest := by
  induction phrase generalizing operand values rest with
  | binary other others next left right first _ =>
      by_cases weaker : other.precedence ≤ op.precedence
      · simp only [itemsBehind, valueBehind, weaker, if_true, List.append_assoc]
        rw [first, right.reduce_items]
        exact Evaluation.reduce_binary others _ right.value values rest
      · have whole := (binary other others next left right).reduce_items_operator makes operand
          values rest
        simpa [itemsBehind, valueBehind, weaker, items, value] using whole
  | lift _ _ inner => exact inner operand values rest
  | literal negative numeral => exact (literal negative numeral).reduce_items_operator makes ..
  | group inner => exact (group inner).reduce_items_operator makes ..
  | percent inner => exact (percent inner).reduce_items_operator makes ..
  | root inner => exact (root inner).reduce_items_operator makes ..

theorem beginsWithNumber_items {level : Category} (phrase : Expression level) :
    Item.beginsWithNumber phrase.items := by
  induction phrase with
  | literal => rfl
  | group _ inner => exact inner
  | percent _ operand | root _ operand => exact Item.beginsWithNumber_append operand _
  | binary _ _ _ _ _ left =>
      exact Item.beginsWithNumber_append (Item.beginsWithNumber_append left _) _
  | lift _ _ inner => exact inner

theorem beginsWithNumber_itemsBehind (op : Operator) {level : Category}
    (phrase : Expression level) : Item.beginsWithNumber (phrase.itemsBehind op) := by
  induction phrase with
  | binary other _ _ left _ first _ =>
      rw [itemsBehind]
      split
      · exact Item.beginsWithNumber_append (Item.beginsWithNumber_append first _) _
      · exact Item.beginsWithNumber_append
          (Item.beginsWithNumber_append left.beginsWithNumber_items _) _
  | lift _ _ inner => exact inner
  | literal => rfl
  | group inner => exact Item.beginsWithNumber_append inner.beginsWithNumber_items _
  | percent inner =>
      exact Item.beginsWithNumber_append (percent inner).beginsWithNumber_items _
  | root inner => exact Item.beginsWithNumber_append (root inner).beginsWithNumber_items _

/-! ## Arrangement -/

open Postfix (arrange roles waiting released before)

/-- A phrase behind an operator that waits is arranged as the items behind this operator. -/
theorem arrange_itemsBehind (op : Operator) {level : Category} (phrase : Expression level)
    (rest : List Token) (separate : Postfix.beginsOperand rest = false)
    (stack : List Postfix.Waiting) :
    ∃ out pending, out ++ released pending = phrase.itemsBehind op ∧
      (∀ entry ∈ pending, min level.leaves op.precedence ≤ entry.1.precedence) ∧
      arrange (waiting [(op, op.arity)] ++ .opening :: stack) (roles (phrase.tokens ++ rest)) =
        before out (arrange (waiting pending ++ .opening :: stack) (roles rest)) := by
  induction phrase generalizing rest with
  | @binary level tighter other makes next left right first _ =>
      have needs := Category.needs_of_makes makes
      have leaves := Category.leaves_of_makes makes
      by_cases weaker : other.precedence ≤ op.precedence
      · -- The operator that waits comes out with the left operand.
        have between := Operator.ne_root_of_makes makes
        have shields : Postfix.Shields other.precedence (.opening :: stack) := trivial
        obtain ⟨out, pending, together, bound, arranged⟩ :=
          first (.ofOperator other :: (right.tokens ++ rest))
            (Postfix.beginsOperand_ofOperator between _)
        rw [leaves, min_eq_left weaker] at bound ⊢
        obtain ⟨later, others, together_right, bound_right, arranged_right⟩ :=
          right.arranges.behindOperator (Category.lt_needs_of_makes makes next) separate
            (.opening :: stack)
        refine ⟨left.itemsBehind op ++ later, others, ?_, ?_, ?_⟩
        · simp [List.append_assoc, together_right, itemsBehind, weaker]
        · intro entry member
          have right_leaves : other.precedence ≤ tighter.leaves :=
            leaves ▸ Category.leaves_le_leaves next
          exact (le_min right_leaves le_rfl).trans (bound_right entry member)
        · rw [tokens, List.append_assoc, List.cons_append, arranged,
            Postfix.arrange_ofOperator between bound shields (right.arranges.begins rest),
            arranged_right, Postfix.before_before, Postfix.before_before, together]
      · have stronger : op.precedence < level.needs := needs ▸ Nat.lt_of_not_le weaker
        have whole := (binary other makes next left right).arranges.behindOperator stronger
          separate (.opening :: stack)
        simpa [itemsBehind, weaker, items] using whole
  | lift next _ inner =>
      obtain ⟨out, pending, together, bound, arranged⟩ := inner rest separate
      exact ⟨out, pending, together, fun entry member =>
        (min_le_min_right _ (Category.leaves_le_leaves next)).trans (bound entry member), arranged⟩
  | literal negative numeral =>
      exact (literal negative numeral).arranges.behindOperator op.precedence_lt_four separate _
  | group inner => exact (group inner).arranges.behindOperator op.precedence_lt_four separate _
  | percent inner => exact (percent inner).arranges.behindOperator op.precedence_lt_four separate _
  | root inner => exact (root inner).arranges.behindOperator op.precedence_lt_four separate _

end Expression

/-! ## A zero below all values -/

namespace Evaluation

variable [Arithmetic]

/-- The same result twice, or values of which there is one and the same values above a zero. -/
inductive ZeroBelow : Except Cause (List Float) → Except Cause (List Float) → Prop where
  | same (result : Except Cause (List Float)) : ZeroBelow result result
  | below {values : List Float} : values ≠ [] → ZeroBelow (.ok values) (.ok (values ++ [0]))

/-- A zero at the bottom is what an operator takes for a left operand that is missing. -/
theorem zeroBelow_step {values : List Float} (nonempty : values ≠ []) (item : Item) :
    ZeroBelow (step values item).value (step (values ++ [0]) item).value := by
  obtain ⟨last, tail, rfl⟩ := List.exists_cons_of_ne_nil nonempty
  cases item with
  | number x => exact .below (List.cons_ne_nil x _)
  | operator op arity =>
      by_cases single : arity = 1
      · simp only [step, single, List.cons_append, if_true]
        cases applied : op.applyUnary last with
        | error cause => exact .same _
        | ok x => exact .below (List.cons_ne_nil x _)
      · cases tail with
        | nil =>
            simp only [step, single, if_false, List.nil_append, List.cons_append]
            exact .same _
        | cons left tail =>
            simp only [step, single, if_false, List.cons_append]
            cases applied : op.applyBinary left last with
            | error cause => exact .same _
            | ok x => exact .below (List.cons_ne_nil x _)

theorem zeroBelow_reduce {values : List Float} (nonempty : values ≠ []) (items : List Item) :
    ZeroBelow (reduce values items).value (reduce (values ++ [0]) items).value := by
  induction items generalizing values with
  | nil => exact .below nonempty
  | cons item rest induction =>
      have stepped := zeroBelow_step nonempty item
      rw [reduce, reduce, Traced.value_bind, Traced.value_bind]
      generalize (step values item).value = applied at stepped ⊢
      generalize (step (values ++ [0]) item).value = applied_above at stepped ⊢
      cases stepped with
      | same => exact .same _
      | below after => exact induction after

theorem value_ofItems_zero {items : List Item} (begins : Item.beginsWithNumber items)
    (source : Option String) :
    (ofItems (.number 0 :: items) source).value = (ofItems items source).value := by
  obtain ⟨x, rest, rfl⟩ : ∃ x rest, items = .number x :: rest := by
    cases items with
    | nil => simp [Item.beginsWithNumber] at begins
    | cons item rest =>
        cases item with
        | number x => exact ⟨x, rest, rfl⟩
        | operator op arity => simp [Item.beginsWithNumber] at begins
  have pushed : reduce [] (.number x :: rest) = reduce [x] rest := reduce_cons rfl rest
  have pushed_above : reduce [] (.number 0 :: .number x :: rest) = reduce ([x] ++ [0]) rest := by
    rw [reduce_cons rfl, reduce_cons rfl]
    rfl
  have related := zeroBelow_reduce (List.cons_ne_nil x []) rest
  rw [ofItems, ofItems, pushed, pushed_above, Traced.value_bind, Traced.value_bind]
  generalize (reduce [x] rest).value = reduced at related ⊢
  generalize (reduce ([x] ++ [0]) rest).value = reduced_above at related ⊢
  cases related with
  | same => rfl
  | @below values nonempty =>
      obtain ⟨last, tail, rfl⟩ := List.exists_cons_of_ne_nil nonempty
      cases tail <;> rfl

end Evaluation

theorem Context.beginsWithNumber_items {level : Category} (context : Context level)
    {inside : List Item} (hole : Item.beginsWithNumber inside) :
    Item.beginsWithNumber (context.items inside) := by
  induction context with
  | hole => exact hole
  | group _ inner => exact inner
  | percent _ operand | root _ operand => exact Item.beginsWithNumber_append operand _
  | inLeft _ _ _ _ _ left =>
      exact Item.beginsWithNumber_append (Item.beginsWithNumber_append left _) _
  | inRight _ _ _ left =>
      exact Item.beginsWithNumber_append
        (Item.beginsWithNumber_append left.beginsWithNumber_items _) _
  | lift _ _ inner => exact inner

/-! ## Groups -/

namespace Headless

variable {op : Operator} {outer : Category}

/-- The text of a group that an operator opens. -/
def text (op : Operator) (behind : List Char) : List Char :=
  '(' :: op.symbol :: behind ++ [')']

/-- The text of the same group with a zero before the operator. -/
def zeroText (op : Operator) (behind : List Char) : List Char :=
  '(' :: '0' :: op.symbol :: behind ++ [')']

/-- The tokens of a group that an operator opens. -/
def tokens (op : Operator) (phrase : Expression .sum) : List Token :=
  .opening :: .ofOperator op :: phrase.tokens ++ [.closing]

/-- The tokens of the same group with a zero before the operator. -/
def zeroTokens (op : Operator) (phrase : Expression .sum) : List Token :=
  .opening :: .number 0 :: .ofOperator op :: phrase.tokens ++ [.closing]

theorem reads (between : op ≠ .root) {behind : List Char} {phrase : Expression .sum}
    (spells : phrase.Spells behind)
    (separate : op = .subtract → beginsNumeral behind = false) :
    Reads (text op behind) (tokens op phrase) true := by
  intro rest _
  obtain ⟨c, tail, rfl⟩ := List.exists_cons_of_ne_nil spells.ne_nil
  have sign : Token.readFrom .expecting (op.symbol :: (c :: tail ++ ')' :: rest)) =
      Token.before [.ofOperator op] (Token.readFrom .expecting (c :: tail ++ ')' :: rest)) := by
    by_cases minus : op = .subtract
    · subst minus
      exact Token.readFrom_subtract false fun _ => separate rfl
    · exact Token.readFrom_operator false minus _
  have whole : text op (c :: tail) ++ rest = '(' :: op.symbol :: (c :: tail ++ ')' :: rest) := by
    simp [text]
  rw [whole, Token.readFrom_opening, sign, spells.reads (')' :: rest) rfl,
    Token.readFrom_closing, Token.before_before, Token.before_before, Token.before_before]
  rfl

theorem value_zero : (Numeral.ofDigit '0' rfl).value false = 0 := by decide +kernel

theorem reads_zero {behind : List Char} {phrase : Expression .sum}
    (spells : phrase.Spells behind) :
    Reads (zeroText op behind) (zeroTokens op phrase) true := by
  have left := Reads.literal false (.ofDigit '0' rfl)
  rw [value_zero] at left
  exact Reads.group (Reads.binary left spells.reads fun _ incomplete => by simp at incomplete)

open Postfix (arrange roles before released waiting Arranges)

theorem arrange_operator (between : op ≠ .root) (phrase : Expression .sum)
    (stack : List Postfix.Waiting) (rest : List Token) :
    arrange (.opening :: stack) (roles (.ofOperator op :: (phrase.tokens ++ .closing :: rest))) =
      before (phrase.itemsBehind op) (arrange stack (roles rest)) := by
  obtain ⟨out, pending, together, _, arranged⟩ :=
    phrase.arrange_itemsBehind op (.closing :: rest) rfl stack
  have shields : Postfix.Shields op.precedence (.opening :: stack) := trivial
  have sign : arrange (.opening :: stack)
      (roles (.ofOperator op :: (phrase.tokens ++ .closing :: rest))) =
      before [] (arrange (waiting [(op, op.arity)] ++ .opening :: stack)
        (roles (phrase.tokens ++ .closing :: rest))) :=
    Postfix.arrange_ofOperator between (fun _ member => absurd member List.not_mem_nil) shields
      (phrase.arranges.begins _)
  rw [sign, arranged, Postfix.arrange_closing, Postfix.before_before, Postfix.before_before,
    List.nil_append, together]

theorem arranges (between : op ≠ .root) (needs leaves : Nat) (phrase : Expression .sum) :
    Arranges needs leaves (tokens op phrase) (phrase.itemsBehind op) where
  begins _ := rfl
  arranges := by
    intro rest stack _ _
    have whole : tokens op phrase ++ rest =
        .opening :: .ofOperator op :: (phrase.tokens ++ .closing :: rest) := by simp [tokens]
    refine ⟨phrase.itemsBehind op, [], List.append_nil _, by simp, ?_⟩
    rw [whole, Postfix.arrange_opening, arrange_operator between, Postfix.before_before]
    rfl

theorem arranges_zero (between : op ≠ .root) (needs leaves : Nat) (phrase : Expression .sum) :
    Arranges needs leaves (zeroTokens op phrase) (.number 0 :: phrase.itemsBehind op) where
  begins _ := rfl
  arranges := by
    intro rest stack _ _
    have whole : zeroTokens op phrase ++ rest =
        .opening :: .number 0 :: .ofOperator op :: (phrase.tokens ++ .closing :: rest) := by
      simp [zeroTokens]
    refine ⟨.number 0 :: phrase.itemsBehind op, [], List.append_nil _, by simp, ?_⟩
    rw [whole, Postfix.arrange_opening, Postfix.arrange_number, arrange_operator between,
      Postfix.before_before, Postfix.before_before]
    rfl

section

variable [Arithmetic]

/-- The value of a context around a group that an operator opens: the operator takes what was read
last. -/
theorem value_evaluate (makes : op.category? = some outer) {phrase : Expression .sum}
    {behind : List Char} (spells : phrase.Spells behind)
    (separate : op = .subtract → beginsNumeral behind = false) {level : Category}
    {context : Context level} {before after : List Char}
    (around : context.Spells before after) {source : String}
    (written : source.toList = before ++ text op behind ++ after) :
    (Evaluation.evaluate source).value =
      .ok (context.displaced (phrase.valueBehind makes) 0) := by
  have between := Operator.ne_root_of_makes makes
  have read := around.reads (reads between spells separate) (fun _ => rfl)
  rw [← written] at read
  have arranged := context.arranges (arranges between _ _ phrase)
  have begins := context.beginsWithNumber_items (phrase.beginsWithNumber_itemsBehind op)
  have reduced := context.reduce_items_displaced
    (fun top values rest => phrase.reduce_itemsBehind makes top values rest) 0 [] []
  rw [List.append_nil] at reduced
  rw [Evaluation.evaluate_of_reads read arranged, ← Evaluation.value_ofItems_zero begins,
    Evaluation.ofItems, Evaluation.reduce_cons rfl, reduced]
  rfl

theorem value_evaluate_zero (makes : op.category? = some outer) {phrase : Expression .sum}
    {behind : List Char} (spells : phrase.Spells behind) {level : Category}
    {context : Context level} {before after : List Char}
    (around : context.Spells before after) {source : String}
    (written : source.toList = before ++ zeroText op behind ++ after) :
    (Evaluation.evaluate source).value =
      .ok (context.value (phrase.valueBehind makes 0)) := by
  have between := Operator.ne_root_of_makes makes
  have inside : Reads (zeroText op behind) (zeroTokens op phrase) true := reads_zero spells
  have read := around.reads inside (fun _ => rfl)
  rw [← written] at read
  have arranged := context.arranges (arranges_zero between _ _ phrase)
  have filled (values : List Float) (rest : List Item) :
      Evaluation.reduce values ((.number 0 :: phrase.itemsBehind op) ++ rest) =
        Evaluation.reduce (phrase.valueBehind makes 0 :: values) rest := by
    rw [List.cons_append, Evaluation.reduce_cons rfl, phrase.reduce_itemsBehind makes]
  have reduced := context.reduce_items filled [] []
  rw [List.append_nil] at reduced
  rw [Evaluation.evaluate_of_reads read arranged, Evaluation.ofItems, reduced]
  rfl

/--
A group that an operator opens, next to the same group with a zero before the operator, in any
context: the first has the displaced value and the second the plain one, and these are what decides
whether the two agree.  They do agree where no operator waits for the group on its left.
-/
theorem evaluate_eq_evaluate_zero_iff (makes : op.category? = some outer)
    {phrase : Expression .sum} {behind : List Char} (spells : phrase.Spells behind)
    (separate : op = .subtract → beginsNumeral behind = false) {level : Category}
    {context : Context level} {before after : List Char}
    (around : context.Spells before after) {source zeroed : String}
    (written : source.toList = before ++ text op behind ++ after)
    (zero_written : zeroed.toList = before ++ zeroText op behind ++ after) :
    (Evaluation.evaluate source).value =
        .ok (context.displaced (phrase.valueBehind makes) 0) ∧
      (Evaluation.evaluate zeroed).value =
        .ok (context.value (phrase.valueBehind makes 0)) ∧
      ((Evaluation.evaluate source).value = (Evaluation.evaluate zeroed).value ↔
        context.displaced (phrase.valueBehind makes) 0 =
          context.value (phrase.valueBehind makes 0)) ∧
      (context.leads → (Evaluation.evaluate source).value =
        (Evaluation.evaluate zeroed).value) := by
  have value := value_evaluate makes spells separate around written
  have zero_value := value_evaluate_zero makes spells around zero_written
  refine ⟨value, zero_value, ?_, ?_⟩
  · rw [value, zero_value, Except.ok.injEq]
  · intro leads
    rw [value, zero_value, context.displaced_of_leads leads]

end

/-- In `2*(-(3))` the minus sign takes the `2`, and the product is left with zero. -/
theorem evaluate_product_of_group :
    (Evaluation.evaluate "2*(-(3))").value = .ok (-0.0) ∧
      (Evaluation.evaluate "2*(0-(3))").value = .ok (-6) := by
  let two := (Expression.ofNumeral false (.ofDigit '2' rfl)).ofPercentage .product nofun
  let three := (Expression.ofNumeral false (.ofDigit '3' rfl)).ofPercentage .sum nofun
  let percentage : Expression .percentage := .lift rfl (.group three)
  let phrase := percentage.ofPercentage .sum nofun
  let context : Context .product :=
    .inRight .multiply rfl rfl two (.lift rfl (.lift rfl (.lift rfl .hole)))
  have two_spells : two.Spells ['2'] :=
    Expression.Spells.ofPercentage _ (.lift (.literal false (.ofDigit '2' rfl)))
  have three_spells : three.Spells ['3'] :=
    Expression.Spells.ofPercentage _ (.lift (.literal false (.ofDigit '3' rfl)))
  have phrase_spells : phrase.Spells ['(', '3', ')'] :=
    Expression.Spells.ofPercentage _ (.lift (.group three_spells))
  have around : context.Spells ['2', '*'] [] :=
    .inRight two_spells (.lift (.lift (.lift .hole))) (by simp)
  have written : "2*(-(3))".toList =
      ['2', '*'] ++ text .subtract ['(', '3', ')'] ++ [] := rfl
  have zero_written : "2*(0-(3))".toList =
      ['2', '*'] ++ zeroText .subtract ['(', '3', ')'] ++ [] := rfl
  have values := evaluate_eq_evaluate_zero_iff rfl phrase_spells (fun _ => rfl) around
    written zero_written
  refine ⟨values.1.trans ?_, values.2.1.trans ?_⟩
  · exact congrArg Except.ok (by decide +kernel)
  · exact congrArg Except.ok (by decide +kernel)

end Headless
end DeskCalculator
