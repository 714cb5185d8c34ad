import DeskCalculator.Proofs.CommandLine.Reading
import DeskCalculator.Proofs.History.Recorded

/-!
# Batches, one expression at a time

The line of an expression in a batch depends on the expression alone: neither on the history that
the batch starts with nor on the other expressions.  A batch gives the lines of its expressions in
order and fails exactly if one of them does.
-/

namespace DeskCalculator

namespace Calculation

variable [Arithmetic]

/-- The line of an expression: its text, or the word for an error, unless it is blank. -/
def line? (expression : String) : Option String :=
  if isBlank expression then none else some ((text expression).value.toOption.getD "Error")

/-- Whether an expression is not blank and has no value. -/
def fails (expression : String) : Bool :=
  !isBlank expression && (text expression).value.toOption.isNone

theorem fails_iff {expression : String} : fails expression ↔
    isBlank expression = false ∧ ∃ failure, (text expression).value = .error failure := by
  cases valued : (text expression).value <;> simp [fails, valued, Except.toOption]

theorem fails_eq_false_iff {expression : String} : fails expression = false ↔
    (isBlank expression = false → ∃ shown, (text expression).value = .ok shown) := by
  cases valued : (text expression).value <;> simp [fails, valued, Except.toOption]

/-- What a calculation comes to depends on the expression alone. -/
theorem outcome_calculate (history : History) (expression : String) :
    (calculate history expression).value.1.map Outcome.text = line? expression ∧
      (calculate history expression).value.1.all Outcome.isSuccess = !fails expression := by
  cases content : isBlank expression with
  | true => simp [value_calculate_of_isBlank content, line?, fails, content]
  | false =>
      cases valued : (value expression).value with
      | ok x =>
          simp [value_calculate_of_ok content valued, line?, fails, content, value_text, valued,
            Except.map, Except.toOption, Outcome.text, Outcome.isSuccess]
      | error failure =>
          simp [value_calculate_of_error content valued, line?, fails, content, value_text, valued,
            Except.map, Except.toOption, Outcome.text, Outcome.isSuccess]

theorem newline_not_mem_line? {expression line : String} (shown : line? expression = some line) :
    '\n' ∉ line.toList := by
  rw [line?, value_text] at shown
  split at shown
  · contradiction
  · obtain rfl := Option.some.inj shown
    have unbroken : '\n' ∉ "Error".toList := by decide
    cases (value expression).value with
    | ok x => exact fun member => absurd (Display.mem_write member) (by decide)
    | error failure => exact unbroken

end Calculation

namespace Batch

open Calculation (isBlank line? fails)

theorem lines_prepend (outcome : Option Outcome) (batch : Batch) :
    (prepend outcome batch).lines = (outcome.map Outcome.text).toList ++ batch.lines := by
  cases outcome <;> rfl

theorem succeeded_prepend (outcome : Option Outcome) (batch : Batch) :
    (prepend outcome batch).succeeded = (outcome.all Outcome.isSuccess && batch.succeeded) := by
  cases outcome <;> rfl

section

variable [Arithmetic]

theorem lines_run (history : History) (expressions : List String) :
    (run history expressions).value.lines = expressions.filterMap line? := by
  induction expressions generalizing history with
  | nil => rfl
  | cons expression rest induction =>
      obtain ⟨line, -⟩ := Calculation.outcome_calculate history expression
      rw [run]
      simp only [Traced.value_bind, Traced.value_pure, lines_prepend, line, induction]
      cases shown : line? expression <;> simp [shown]

theorem succeeded_run (history : History) (expressions : List String) :
    (run history expressions).value.succeeded = expressions.all (!fails ·) := by
  induction expressions generalizing history with
  | nil => rfl
  | cons expression rest induction =>
      obtain ⟨-, success⟩ := Calculation.outcome_calculate history expression
      rw [run]
      simp only [Traced.value_bind, Traced.value_pure, succeeded_prepend, success, induction,
        List.all_cons]

theorem status_run (history : History) (expressions : List String) :
    (run history expressions).value.status = if expressions.any fails then 1 else 0 := by
  rw [status, succeeded_run, ← List.not_any_eq_all_not]
  cases expressions.any fails <;> rfl

theorem lines_run_singleton (history : History) (expression : String) :
    (run history [expression]).value.lines = (line? expression).toList := by
  rw [lines_run]
  cases shown : line? expression <;> simp [shown]

theorem output_and_status_run (history other : History) (expressions : List String) :
    (run history expressions).value.output = (run other expressions).value.output ∧
      (run history expressions).value.status = (run other expressions).value.status := by
  rw [output, output, lines_run, lines_run, status_run, status_run]
  exact ⟨rfl, rfl⟩

end

end Batch
end DeskCalculator
