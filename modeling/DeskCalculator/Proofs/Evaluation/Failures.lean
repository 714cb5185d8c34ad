import DeskCalculator.Calculation
import DeskCalculator.Proofs.Display.Units
import DeskCalculator.Proofs.Evaluation.LastOperand
import DeskCalculator.Proofs.Numeric.Bits

/-!
# The failures of an evaluation

The types leave room for operators that are applied to a number of operands they have no operation
for, but no text leads there: a literal in it is no number, or an operator has no operand, or it has
a value.
-/

namespace DeskCalculator

namespace Evaluation

variable [Arithmetic]

theorem value_evaluate_of_read {source : String} {tokens : List Token}
    (read : (Token.ofSource source).value = .ok tokens) :
    (evaluate source).value = (ofItems (Postfix.ofTokens tokens).value (some source)).value := by
  rw [← value_ofTokens]
  simp [evaluate, read]

theorem value_evaluate_of_failure {source : String} {failure : Failure}
    (misread : (Token.ofSource source).value = .error failure) :
    (evaluate source).value = .error failure := by
  simp [evaluate, misread]

theorem value_evaluate_ne_invalidNumber {source : String} {tokens : List Token}
    (read : (Token.ofSource source).value = .ok tokens) (literal : String)
    (expression : Option String) :
    (evaluate source).value ≠ .error ⟨.invalidNumber literal, expression⟩ := by
  rw [value_evaluate_of_read read]
  rcases missingOperand_or_exists_value (Postfix.isMarked_of_ofSource read) (some source) with
    ⟨op, missing⟩ | ⟨x, valued⟩
  · simp [missing]
  · simp [valued]

/-- A text has a value, or one of two failures that keep the text. -/
theorem evaluate_cases (source : String) :
    (∃ x, (evaluate source).value = .ok x) ∨
      (∃ literal, (evaluate source).value = .error ⟨.invalidNumber literal, some source⟩) ∨
      ∃ op, (evaluate source).value = .error ⟨.missingOperand op, some source⟩ := by
  cases read : (Token.ofSource source).value with
  | error failure =>
      obtain ⟨literal, rfl⟩ := Token.exists_invalidNumber_of_ofSource read
      exact Or.inr (Or.inl ⟨literal, value_evaluate_of_failure read⟩)
  | ok tokens =>
      rw [value_evaluate_of_read read]
      rcases missingOperand_or_exists_value (Postfix.isMarked_of_ofSource read) (some source) with
        missing | valued
      · exact Or.inr (Or.inr missing)
      · exact Or.inl valued

end Evaluation

namespace Item

/-- What a marked item is: a number, an operator on one operand, or one between two. -/
theorem isMarked_iff {item : Item} : item.isMarked ↔
    (∃ x, item = .number x) ∨
      (∃ op, item = .operator op 1 ∧ (op = .root ∨ op = .percent)) ∨
      ∃ op, item = .operator op 2 ∧ op ≠ .root := by
  cases item with
  | number x => simp [isMarked]
  | operator op arity => cases op <;> simp [isMarked]

end Item

namespace Calculation

theorem shown_eq (x : Float) : shown x = .ok (Display.write Display.places x) := by
  have room : Display.write? Display.places x = some (Display.write Display.places x) :=
    Display.write?_eq_some (by decide : 8 ≤ 91) x
  rw [shown, room]

section

variable [Arithmetic]

theorem value_text (expression : String) :
    (text expression).value = (value expression).value.map (Display.write Display.places) := by
  cases valued : (value expression).value <;> simp [text, valued, shown_eq, Except.bind, Except.map]

theorem value_calculate_of_isBlank {expression : String} (blank : isBlank expression)
    (history : History) : (calculate history expression).value = (none, history) := by
  simp [calculate, blank]

theorem value_calculate_of_ok {expression : String} (content : isBlank expression = false)
    {x : Float} (valued : (value expression).value = .ok x) (history : History) :
    (calculate history expression).value =
      (some (.success expression x (Display.write Display.places x)),
        history.add ⟨expression, Display.write Display.places x⟩) := by
  simp [calculate, content, valued, shown_eq, Except.bind, Except.map]

theorem value_calculate_of_error {expression : String} (content : isBlank expression = false)
    {failure : Failure} (failed : (value expression).value = .error failure) (history : History) :
    (calculate history expression).value =
      (some (.failure expression failure.cause), history) := by
  cases noted : notice? expression failure.cause <;>
    simp [calculate, content, failed, noted, Except.bind]

theorem calculate_cases (history : History) (expression : String) :
    (calculate history expression).value.1 = none ∨
      (∃ x, (calculate history expression).value.1 =
        some (.success expression x (Display.write Display.places x))) ∨
      ∃ cause, (calculate history expression).value.1 = some (.failure expression cause) ∧
        (Outcome.failure expression cause).text = "Error" ∧
        ((∃ literal, cause = .invalidNumber literal) ∨ ∃ op, cause = .missingOperand op) := by
  cases content : isBlank expression with
  | true => exact Or.inl (by rw [value_calculate_of_isBlank content])
  | false =>
      rcases Evaluation.evaluate_cases (Display.normalize expression) with
        ⟨x, valued⟩ | ⟨literal, misread⟩ | ⟨op, missing⟩
      · exact Or.inr (Or.inl ⟨x, by rw [value_calculate_of_ok content valued]⟩)
      · refine Or.inr (Or.inr ⟨_, ?_, rfl, Or.inl ⟨literal, rfl⟩⟩)
        rw [value_calculate_of_error content misread]
      · refine Or.inr (Or.inr ⟨_, ?_, rfl, Or.inr ⟨op, rfl⟩⟩)
        rw [value_calculate_of_error content missing]

/--
No text leads out of the two failures.  A text has a value, or a literal in it is no number, or an
operator lacks an operand, and the failure keeps the text.  For the items of a text are numbers,
roots and percent signs on one operand, and operators other than the root between two.  Hence a
calculation comes to nothing, to a shown value or to an error, whatever the history, and no number
is too large to be shown.
-/
theorem evaluate_and_calculate_cases (source expression : String) (history : History) :
    ((∃ x, (Evaluation.evaluate source).value = .ok x) ∨
        (∃ literal, (Evaluation.evaluate source).value =
          .error ⟨.invalidNumber literal, some source⟩) ∨
        ∃ op, (Evaluation.evaluate source).value = .error ⟨.missingOperand op, some source⟩) ∧
      (∀ tokens, (Token.ofSource source).value = .ok tokens →
        ∀ item ∈ (Postfix.ofTokens tokens).value,
          (∃ x, item = .number x) ∨
            (∃ op, item = .operator op 1 ∧ (op = .root ∨ op = .percent)) ∨
            ∃ op, item = .operator op 2 ∧ op ≠ .root) ∧
      ((calculate history expression).value.1 = none ∨
        (∃ x, (calculate history expression).value.1 =
          some (.success expression x (Display.write Display.places x))) ∨
        ∃ cause, (calculate history expression).value.1 = some (.failure expression cause) ∧
          (Outcome.failure expression cause).text = "Error" ∧
          ((∃ literal, cause = .invalidNumber literal) ∨ ∃ op, cause = .missingOperand op)) ∧
      ∀ x negative magnitude, Binary64.view x = .finite negative magnitude →
        Display.units magnitude < 10 ^ Display.precision := by
  refine ⟨Evaluation.evaluate_cases source, fun tokens read item member => ?_,
    calculate_cases history expression, fun x negative magnitude seen => ?_⟩
  · exact Item.isMarked_iff.mp (Postfix.isMarked_of_ofSource read item member)
  · exact Display.units_lt (Binary64.lt_infinityWord_of_view seen)

end

/-- The percent sign of `8%√(2` stands between two operands, and there is room for the digits of the
largest number. -/
theorem items_percent_of_root_and_units_largest :
    (∀ item ∈ (Postfix.ofTokens [.number 8, .operator .percent 2, .operator .root 1, .opening,
        .number 2]).value,
      (∃ x, item = .number x) ∨
        (∃ op, item = .operator op 1 ∧ (op = .root ∨ op = .percent)) ∨
        ∃ op, item = .operator op 2 ∧ op ≠ .root) ∧
      Display.units (Binary64.infinityWord - 1) < 10 ^ Display.precision := by
  have cases := evaluate_and_calculate_cases "8%√(2" "" (.empty none)
  have largest : Binary64.infinityWord - 1 < Binary64.infinityWord := by decide
  exact ⟨cases.2.1 _ rfl, cases.2.2.2 _ _ _ (Binary64.view_ofMagnitude false largest)⟩

end Calculation
end DeskCalculator
