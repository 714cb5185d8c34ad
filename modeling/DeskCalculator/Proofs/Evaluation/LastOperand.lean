import DeskCalculator.Numeric.Power
import DeskCalculator.Proofs.Postfix.Items

/-!
# The last operand of an expression in postfix notation

An expression in postfix notation can be read from its end: the last item is a number, or an
operator whose operands stand before it, the right one first.  The reduction from the left agrees,
since the values below the last one are those of the items before the last operand.
-/

namespace DeskCalculator
namespace Evaluation

section

variable [Arithmetic]

/--
Read from its end, a list of items gives the value of its last operand and leaves the items before
this operand.  An operator between two operands takes zero for the left one if its right operand
leaves no items.
-/
inductive LastOperand : List Item → Float → List Item → Prop where
  | number (before : List Item) (value : Float) :
      LastOperand (before ++ [.number value]) value before
  | unary {items before : List Item} {op : Operator} {operand value : Float} :
      LastOperand items operand before → op.applyUnary operand = .ok value →
      LastOperand (items ++ [.operator op 1]) value before
  | binary {items middle before : List Item} {op : Operator} {left right value : Float} :
      LastOperand items right middle → LastOperand middle left before →
      op.applyBinary left right = .ok value →
      LastOperand (items ++ [.operator op 2]) value before
  | missing {items : List Item} {op : Operator} {right value : Float} :
      LastOperand items right [] → op.applyBinary 0 right = .ok value →
      LastOperand (items ++ [.operator op 2]) value []

/-! ## The reduction -/

theorem value_reduce_concat {items : List Item} {values : List Float}
    (reduced : (reduce [] items).value = .ok values) (item : Item) :
    (reduce [] (items ++ [item])).value = (step values item).value := by
  rw [reduce_append, Traced.value_bind, reduced]
  simp only [reduce, Traced.value_bind]
  cases (step values item).value <;> rfl

namespace LastOperand

variable {items before : List Item} {value : Float}

/-- The value of the last operand lies on top of the values of the items before it. -/
theorem value_reduce (last : LastOperand items value before) {values : List Float}
    (reduced : (reduce [] before).value = .ok values) :
    (reduce [] items).value = .ok (value :: values) := by
  induction last generalizing values with
  | number before value => exact value_reduce_concat reduced (.number value)
  | unary _ applied operand =>
      rw [value_reduce_concat (operand reduced)]
      simp [step, applied, Except.map]
  | binary _ _ applied right left =>
      rw [value_reduce_concat (right (left reduced))]
      simp [step, applied, Except.map]
  | missing _ applied right =>
      obtain rfl : [] = values := Except.ok.inj reduced
      rw [value_reduce_concat (right rfl)]
      simp [step, applied, Except.map]

/-- The last operand takes some items from the end.  Where items are left before it, it has all the
operands it needs, and what they are does not matter. -/
theorem exists_used (last : LastOperand items value before) :
    ∃ used, used ≠ [] ∧ items = before ++ used ∧
      (before ≠ [] → ∀ front, LastOperand (front ++ used) value front) := by
  induction last with
  | number before value =>
      exact ⟨[.number value], by simp, rfl, fun _ front => .number front value⟩
  | @unary items before op operand value _ applied induction =>
      obtain ⟨used, _, rfl, moves⟩ := induction
      refine ⟨used ++ [.operator op 1], by simp, by simp, fun left_over front => ?_⟩
      rw [← List.append_assoc]
      exact .unary (moves left_over front) applied
  | @binary items middle before op left right value _ _ applied right_induction left_induction =>
      obtain ⟨used, _, rfl, moves⟩ := right_induction
      obtain ⟨left_used, nonempty, rfl, left_moves⟩ := left_induction
      refine ⟨left_used ++ used ++ [.operator op 2], by simp, by simp, fun left_over front => ?_⟩
      have right_moved := moves (by simp [nonempty]) (front ++ left_used)
      rw [← List.append_assoc, ← List.append_assoc]
      exact .binary right_moved (left_moves left_over front) applied
  | @missing items op right value last applied _ =>
      exact ⟨items ++ [.operator op 2], by simp, rfl, fun left_over => absurd rfl left_over⟩

end LastOperand

/-! ## The stack of values -/

/-- The values of all operands of a list of items, the last operand first. -/
inductive Operands : List Item → List Float → Prop where
  | nothing : Operands [] []
  | last {items before : List Item} {value : Float} {values : List Float} :
      LastOperand items value before → Operands before values → Operands items (value :: values)

namespace Operands

variable {items : List Item}

/-- A marked item behind items with an operand is applied without failure, and the stack holds the
values of all operands again. -/
theorem step {last : Float} {below : List Float} (operands : Operands items (last :: below))
    {item : Item} (marked : item.isMarked) :
    ∃ value values, (Evaluation.step (last :: below) item).value = .ok (value :: values) ∧
      Operands (items ++ [item]) (value :: values) := by
  cases item with
  | number x => exact ⟨x, last :: below, rfl, .last (.number items x) operands⟩
  | operator op arity =>
      cases operands with
      | last read others =>
          rcases Item.applies_of_isMarked marked with ⟨rfl, applies⟩ | ⟨rfl, applies⟩
          · obtain ⟨value, applied⟩ := applies last
            refine ⟨value, below, ?_, .last (.unary read applied) others⟩
            simp [Evaluation.step, applied, Except.map]
          · cases others with
            | nothing =>
                obtain ⟨value, applied⟩ := applies 0 last
                refine ⟨value, [], ?_, .last (.missing read applied) .nothing⟩
                simp [Evaluation.step, applied, Except.map]
            | @last _ _ left values left_read others =>
                obtain ⟨value, applied⟩ := applies left last
                refine ⟨value, values, ?_, .last (.binary read left_read applied) others⟩
                simp [Evaluation.step, applied, Except.map]

theorem reduce {last : Float} {below : List Float} (operands : Operands items (last :: below))
    {rest : List Item} (marked : ∀ item ∈ rest, item.isMarked) :
    ∃ value values, (Evaluation.reduce (last :: below) rest).value = .ok (value :: values) ∧
      Operands (items ++ rest) (value :: values) := by
  induction rest generalizing items last below with
  | nil => exact ⟨last, below, rfl, by simpa using operands⟩
  | cons item rest induction =>
      have item_marked := marked item List.mem_cons_self
      have rest_marked : ∀ other ∈ rest, other.isMarked :=
        fun other member => marked other (List.mem_cons_of_mem item member)
      obtain ⟨next, values, stepped, after⟩ := operands.step item_marked
      obtain ⟨value, others, reduced, whole⟩ := induction after rest_marked
      refine ⟨value, others, ?_, by simpa using whole⟩
      rw [Evaluation.reduce, Traced.value_bind, stepped]
      exact reduced

end Operands

theorem exists_operands {items : List Item} (marked : ∀ item ∈ items, item.isMarked)
    (begins : Item.beginsWithNumber items) :
    ∃ value values, (reduce [] items).value = .ok (value :: values) ∧
      Operands items (value :: values) := by
  obtain ⟨first, rest, rfl⟩ := Item.exists_number_cons begins
  have alone : Operands [.number first] [first] := .last (.number [] first) .nothing
  have rest_marked : ∀ item ∈ rest, item.isMarked :=
    fun item member => marked item (List.mem_cons_of_mem _ member)
  obtain ⟨value, values, reduced, operands⟩ := alone.reduce rest_marked
  exact ⟨value, values, reduced, operands⟩

/-! ## The value of an expression -/

theorem value_ofItems_of_reduce {items : List Item} {value : Float} {values : List Float}
    (reduced : (reduce [] items).value = .ok (value :: values)) (expression : Option String) :
    (ofItems items expression).value = .ok value := by
  rw [ofItems, Traced.value_bind, reduced]
  cases values <;> rfl

theorem value_ofTokens (tokens : List Token) (expression : Option String) :
    (ofTokens tokens expression).value =
      (ofItems (Postfix.ofTokens tokens).value expression).value := by
  simp [ofTokens]

theorem value_ofItems_operator (op : Operator) (arity : Int) (rest : List Item)
    (expression : Option String) :
    (ofItems (.operator op arity :: rest) expression).value =
      .error ⟨.missingOperand op, expression⟩ := rfl

theorem exists_value_ofItems {items : List Item} (marked : ∀ item ∈ items, item.isMarked)
    (begins : Item.beginsWithNumber items) (expression : Option String) :
    ∃ value, (ofItems items expression).value = .ok value := by
  obtain ⟨value, values, reduced, _⟩ := exists_operands marked begins
  exact ⟨value, value_ofItems_of_reduce reduced expression⟩

theorem value_ofItems_cases {items : List Item} (marked : ∀ item ∈ items, item.isMarked)
    (expression : Option String) :
    (items = [] ∧ (ofItems items expression).value = .ok 0) ∨
      (∃ op arity rest, items = .operator op arity :: rest ∧
        (ofItems items expression).value = .error ⟨.missingOperand op, expression⟩) ∨
      (Item.beginsWithNumber items ∧
        ∃ value, (ofItems items expression).value = .ok value) := by
  cases items with
  | nil => exact Or.inl ⟨rfl, rfl⟩
  | cons item rest =>
      cases item with
      | number x => exact Or.inr (Or.inr ⟨rfl, exists_value_ofItems marked rfl expression⟩)
      | operator op arity =>
          have missing := value_ofItems_operator op arity rest expression
          exact Or.inr (Or.inl ⟨op, arity, rest, rfl, missing⟩)

/-- The text of an expression makes no difference to its value; a failure keeps it. -/
theorem value_ofItems_congr {items : List Item} (marked : ∀ item ∈ items, item.isMarked)
    (expression other : Option String) :
    (ofItems items expression).value =
      (ofItems items other).value.mapError ({ · with expression := expression }) := by
  cases items with
  | nil => rfl
  | cons item rest =>
      cases item with
      | number x =>
          obtain ⟨value, values, reduced, -⟩ := exists_operands marked rfl
          rw [value_ofItems_of_reduce reduced, value_ofItems_of_reduce reduced]
          rfl
      | operator op arity => rfl

theorem exists_missingOperand_iff {items : List Item} (marked : ∀ item ∈ items, item.isMarked)
    (expression : Option String) :
    (∃ op, (ofItems items expression).value = .error ⟨.missingOperand op, expression⟩) ↔
      items ≠ [] ∧ ¬ Item.beginsWithNumber items := by
  rcases value_ofItems_cases marked expression with
    ⟨rfl, valued⟩ | ⟨op, arity, rest, rfl, missing⟩ | ⟨begins, value, valued⟩
  · simp [valued]
  · simp [missing, Item.beginsWithNumber]
  · simp [valued, begins]

theorem missingOperand_or_exists_value {items : List Item}
    (marked : ∀ item ∈ items, item.isMarked) (expression : Option String) :
    (∃ op, (ofItems items expression).value = .error ⟨.missingOperand op, expression⟩) ∨
      ∃ value, (ofItems items expression).value = .ok value := by
  rcases value_ofItems_cases marked expression with
    ⟨_, valued⟩ | ⟨op, _, _, _, missing⟩ | ⟨_, value, valued⟩
  · exact Or.inr ⟨0, valued⟩
  · exact Or.inl ⟨op, missing⟩
  · exact Or.inr ⟨value, valued⟩

/-- An expression has the value of its last operand, if what is left before this operand is nothing
or has a value itself. -/
theorem LastOperand.value_ofItems {items before : List Item} {value : Float}
    (last : LastOperand items value before) (marked : ∀ item ∈ before, item.isMarked)
    (begins : before = [] ∨ Item.beginsWithNumber before) (expression : Option String) :
    (ofItems items expression).value = .ok value := by
  rcases begins with rfl | begins
  · exact value_ofItems_of_reduce (last.value_reduce rfl) expression
  · obtain ⟨_, _, reduced, _⟩ := exists_operands marked begins
    exact value_ofItems_of_reduce (last.value_reduce reduced) expression

/--
The value of marked items.  No items have the value zero, and exactly an operator that comes first
fails.  Items that begin with a number have a last operand; however it is read, its value is theirs,
and the items left before it can be taken away or replaced by others that begin with a number.
-/
theorem value_ofItems_of_marked {items : List Item} (marked : ∀ item ∈ items, item.isMarked)
    (expression : Option String) :
    (items = [] → (ofItems items expression).value = .ok 0) ∧
      (∀ op, (ofItems items expression).value = .error ⟨.missingOperand op, expression⟩ ↔
        ∃ arity rest, items = .operator op arity :: rest) ∧
      (Item.beginsWithNumber items →
        (∃ value before, LastOperand items value before) ∧
          ∀ value before, LastOperand items value before →
            (ofItems items expression).value = .ok value ∧
              ∃ used, items = before ++ used ∧
                (before ≠ [] → ∀ front, (∀ item ∈ front, item.isMarked) →
                  front = [] ∨ Item.beginsWithNumber front →
                    (ofItems (front ++ used) expression).value = .ok value)) := by
  refine ⟨?empty, ?failure, fun begins => ⟨?existence, fun value before last => ?value⟩⟩
  case empty =>
    rintro rfl
    rfl
  case failure =>
    intro op
    rcases value_ofItems_cases marked expression with
      ⟨rfl, valued⟩ | ⟨other, arity, rest, rfl, missing⟩ | ⟨begins, value, valued⟩
    · simp [valued]
    · simp [missing]
    · rw [valued]
      refine ⟨nofun, ?_⟩
      rintro ⟨arity, rest, rfl⟩
      simp [Item.beginsWithNumber] at begins
  case existence =>
    obtain ⟨value, values, _, operands⟩ := exists_operands marked begins
    cases operands with
    | @last _ before _ _ last _ => exact ⟨value, before, last⟩
  case value =>
    obtain ⟨used, _, rfl, moves⟩ := last.exists_used
    have before_marked : ∀ item ∈ before, item.isMarked :=
      fun item member => marked item (List.mem_append_left _ member)
    have before_begins : before = [] ∨ Item.beginsWithNumber before :=
      or_iff_not_imp_left.mpr fun left_over => Item.beginsWithNumber_of_append left_over begins
    exact ⟨last.value_ofItems before_marked before_begins expression, used, rfl,
      fun left_over front front_marked front_begins =>
        (moves left_over front).value_ofItems front_marked front_begins expression⟩

end

/-- In `2 9 √ 7 3 - %` the difference is taken in hundredths, and nothing before it is used. -/
theorem value_ofItems_hundredth_of_difference :
    (ofItems [.number 2, .number 9, .operator .root 1, .number 7, .number 3,
        .operator .subtract 2, .operator .percent 1]).value = .ok ((7 - 3) / 100) ∧
      (ofItems [.number 8, .number 7, .number 3, .operator .subtract 2,
        .operator .percent 1]).value = .ok ((7 - 3) / 100) := by
  let before : List Item := [.number 2, .number 9, .operator .root 1]
  let difference : List Item := [.number 7, .number 3, .operator .subtract 2]
  have left : LastOperand (before ++ [.number 7]) 7 before := .number before 7
  have right : LastOperand (before ++ [.number 7, .number 3]) 3 (before ++ [.number 7]) :=
    .number (before ++ [.number 7]) 3
  have subtracted : LastOperand (before ++ difference) (7 - 3) before := .binary right left rfl
  have last : LastOperand (before ++ difference ++ [.operator .percent 1]) ((7 - 3) / 100)
      before := .unary subtracted rfl
  have marked : ∀ item ∈ before ++ difference ++ [.operator .percent 1], item.isMarked := by
    decide
  obtain ⟨value, used, split, replaced⟩ :=
    ((value_ofItems_of_marked marked none).2.2 rfl).2 _ _ last
  obtain rfl : difference ++ [.operator .percent 1] = used := by simpa using split
  have front_marked : ∀ item ∈ [Item.number 8], item.isMarked := by simp [Item.isMarked]
  exact ⟨value, replaced (List.cons_ne_nil _ _) [.number 8] front_marked (Or.inr rfl)⟩

/-- In `7 3 - +` the sum has no left operand. -/
example :
    (ofItems [.number 7, .number 3, .operator .subtract 2, .operator .add 2]).value.toOption =
      some (0 + (7 - 3)) := by decide +kernel

end Evaluation
end DeskCalculator
