import DeskCalculator.Proofs.Text.Trim
import DeskCalculator.Proofs.Token.Spacing

/-!
# Expressions of the display

A displayed expression is evaluated with plain operators and without the blanks at its ends.  The
blanks make no difference to its tokens, so it has the value of the expression with nothing but the
signs of the display replaced.
-/

namespace DeskCalculator

namespace Display

/-! ## Signs of the display -/

/-- The signs of the display with the plain characters for them. -/
def signs : List (Char × Char) := [('×', '*'), ('÷', '/'), ('−', '-')]

/-- A text with a character in place of every occurrence of another. -/
def replace (text : List Char) (sign : Char × Char) : List Char :=
  text.map fun c => if c = sign.1 then sign.2 else c

/-- The signs can be replaced one after the other, since none is put in place of another. -/
theorem foldl_replace (text : List Char) : signs.foldl replace text = text.map plain := by
  simp only [signs, replace, List.foldl_cons, List.foldl_nil, List.map_map]
  refine List.map_congr_left fun c _ => ?_
  simp only [Function.comp_apply, plain]
  split_ifs <;> simp_all

theorem plain_plain (c : Char) : plain (plain c) = plain c := by
  simp only [plain]
  split_ifs <;> simp_all

theorem isBlank_plain (c : Char) : Text.isBlank (plain c) = Text.isBlank c := by
  simp only [plain]
  split_ifs with times divided minus
  · rw [times]
    rfl
  · rw [divided]
    rfl
  · rw [minus]
    rfl
  · rfl

/-- An expression with plain operators, and nothing else changed. -/
def plainly (expression : String) : String := String.ofList (expression.toList.map plain)

/-! ## Normalized expressions -/

theorem toList_normalize (expression : String) :
    (normalize expression).toList = Text.trim Text.isBlank (plainly expression).toList := by
  rw [normalize, plainly, String.toList_ofList, String.toList_ofList, Text.trim_map isBlank_plain]

theorem normalize_eq_replace (expression : String) :
    normalize expression = String.ofList (signs.foldl replace (Text.strip expression).toList) := by
  rw [normalize, foldl_replace, Text.strip, String.toList_ofList]

theorem normalize_normalize (expression : String) :
    normalize (normalize expression) = normalize expression := by
  have again : (plainly (normalize expression)).toList = (normalize expression).toList := by
    rw [plainly, normalize, String.toList_ofList, String.toList_ofList, List.map_map]
    exact List.map_congr_left fun c _ => plain_plain c
  rw [← String.toList_inj, toList_normalize, again, toList_normalize, Text.trim_trim]

theorem ofSource_normalize (expression : String) :
    (Token.ofSource (normalize expression)).value.mapError Failure.cause =
      (Token.ofSource (plainly expression)).value.mapError Failure.cause := by
  obtain ⟨front, behind, split, blank_front, blank_behind⟩ :=
    Text.exists_trim_append Text.isBlank (plainly expression).toList
  set trimmed := Text.trim Text.isBlank (plainly expression).toList with trimmed_eq
  have without_behind := Token.value_ofLexemes_ignored_between (front ++ trimmed) []
    (fun c member => Text.isIgnored_of_isBlank (blank_behind c member)) (Or.inl rfl)
  have without_front := Token.value_ofLexemes_ignored_between [] trimmed
    (fun c member => Text.isIgnored_of_isBlank (blank_front c member)) (Or.inr rfl)
  rw [List.append_nil, List.append_nil, ← split] at without_behind
  rw [List.nil_append, List.nil_append] at without_front
  rw [Token.mapError_ofSource, Token.mapError_ofSource, toList_normalize, ← trimmed_eq,
    without_behind, without_front]

end Display

namespace Calculation

open Display (normalize plainly signs replace write places)

section

variable [Arithmetic]

theorem value_value (expression : String) :
    (value expression).value = (Evaluation.evaluate (plainly expression)).value.mapError
      ({ · with expression := some (normalize expression) }) :=
  Evaluation.value_evaluate_congr (Display.ofSource_normalize expression)

/-- What a calculation tells of an evaluation: its text and the value shown, or the kind of the
failure. -/
def Tells (outcome : Outcome) (source : String) : Except Failure String → Prop
  | .ok shown => outcome.text = shown ∧ outcome.kind? = none ∧
      ∃ x, (Evaluation.evaluate source).value = .ok x ∧ outcome.value? = some x
  | .error failure => outcome.text = "Error" ∧ outcome.value? = none ∧
      ((∃ literal, failure.cause = .invalidNumber literal) ∧
          outcome.kind?.map FailureKind.name = some "parse" ∨
        (∃ op, failure.cause = .missingOperand op) ∧
          outcome.kind?.map FailureKind.name = some "missing_operand")

/-- A calculation of what is not blank tells what an evaluation comes to, whatever the history. -/
theorem exists_tells (history : History) {expression : String}
    (content : isBlank expression = false) :
    ∃ outcome, (calculate history expression).value.1 = some outcome ∧
      (outcome.isSuccess ↔ ∃ shown, (text expression).value = .ok shown) ∧
      Tells outcome (plainly expression) (text expression).value := by
  have plain_value := value_value expression
  rcases Evaluation.evaluate_cases (plainly expression) with
    ⟨x, valued⟩ | ⟨literal, misread⟩ | ⟨op, missing⟩
  · rw [valued] at plain_value
    rw [value_calculate_of_ok content plain_value, value_text, plain_value]
    exact ⟨_, rfl, ⟨fun _ => ⟨_, rfl⟩, fun _ => rfl⟩, rfl, rfl, x, valued, rfl⟩
  · rw [misread] at plain_value
    rw [value_calculate_of_error content plain_value, value_text, plain_value]
    refine ⟨_, rfl, ⟨nofun, nofun⟩, rfl, rfl, Or.inl ⟨⟨literal, rfl⟩, rfl⟩⟩
  · rw [missing] at plain_value
    rw [value_calculate_of_error content plain_value, value_text, plain_value]
    refine ⟨_, rfl, ⟨nofun, nofun⟩, rfl, rfl, Or.inr ⟨⟨op, rfl⟩, rfl⟩⟩

/--
A displayed expression can be evaluated as it is, normalized or with nothing but its signs replaced:
the tokens are the same, or the same literal fails.  To normalize it is to remove the blanks at its
ends and to replace the signs one after the other, and a second time nothing is left to do.  An
evaluation shows the text of the plain expression's value or keeps the normalized expression with
its cause, and a calculation tells the same, whatever the history.
-/
theorem calculate_plainly (expression : String) :
    (Token.ofSource (normalize expression)).value.mapError Failure.cause =
        (Token.ofSource (plainly expression)).value.mapError Failure.cause ∧
      normalize expression =
        String.ofList (signs.foldl replace (Text.strip expression).toList) ∧
      normalize (normalize expression) = normalize expression ∧
      (text expression).value =
        ((Evaluation.evaluate (plainly expression)).value.map (write places)).mapError
          ({ · with expression := some (normalize expression) }) ∧
      ∀ history, isBlank expression = false → ∃ outcome,
        (calculate history expression).value.1 = some outcome ∧
          (outcome.isSuccess ↔ ∃ shown, (text expression).value = .ok shown) ∧
          Tells outcome (plainly expression) (text expression).value := by
  refine ⟨Display.ofSource_normalize expression, Display.normalize_eq_replace expression,
    Display.normalize_normalize expression, ?_, fun history => exists_tells history⟩
  rw [value_text, value_value]
  cases (Evaluation.evaluate (plainly expression)).value <;> rfl

end

/-- A quotient with signs of the display between blanks is shown as `-1.5`, and in `×2.5.` a literal
fails before an operand is missed. -/
theorem calculate_signs_and_blanks :
    (∃ outcome, (calculate (.empty none) "\t6÷−4\u00a0").value.1 = some outcome ∧
        outcome.text = "-1.5" ∧ outcome.value? = some (-1.5)) ∧
      ∃ outcome, (calculate (.empty none) " ×2.5.").value.1 = some outcome ∧
        outcome.text = "Error" ∧ outcome.kind?.map FailureKind.name = some "parse" := by
  constructor
  · have shown : (text "\t6÷−4\u00a0").value = .ok "-1.5" := by decide +kernel
    have valued : (Evaluation.evaluate (plainly "\t6÷−4\u00a0")).value = .ok (-1.5) := rfl
    obtain ⟨outcome, calculated, -, told⟩ :=
      (calculate_plainly "\t6÷−4\u00a0").2.2.2.2 (.empty none) rfl
    rw [shown] at told
    obtain ⟨same, -, x, value_x, outcome_x⟩ := told
    obtain rfl : -1.5 = x := Except.ok.inj (valued.symm.trans value_x)
    exact ⟨outcome, calculated, same, outcome_x⟩
  · have failed : (text " ×2.5.").value = .error ⟨.invalidNumber "2.5.", some "*2.5."⟩ := rfl
    obtain ⟨outcome, calculated, -, told⟩ :=
      (calculate_plainly " ×2.5.").2.2.2.2 (.empty none) rfl
    rw [failed] at told
    obtain ⟨same, -, kind | ⟨⟨op, missing⟩, -⟩⟩ := told
    · exact ⟨outcome, calculated, same, kind.2⟩
    · contradiction

end Calculation

end DeskCalculator
