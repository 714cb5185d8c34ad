import DeskCalculator.Batch
import DeskCalculator.Proofs.Session.Reading

/-!
# Sessions of expressions

A session takes the blanks off its lines and tells commands from expressions; a batch does none of
this.  For texts that are lines of their own and no commands, a session prints what a batch prints,
with a prompt in front of every line, and leaves the same history.
-/

namespace DeskCalculator

/-! ## Lines -/

namespace Session

/-- A text that a session reads as an expression, as it stands: there are no blanks at its ends and
no line feed in it, and it is no command. -/
structure IsExpression (text : String) : Prop where
  /-- There is something to calculate. -/
  nonempty : text ≠ ""
  /-- There are no blanks at its ends. -/
  stripped : Text.strip text = text
  /-- It is a single line. -/
  unbroken : '\n' ∉ text.toList
  /-- It is no command. -/
  plain : Command.isReserved text = false

instance (text : String) : Decidable (IsExpression text) :=
  decidable_of_iff (text ≠ "" ∧ Text.strip text = text ∧ '\n' ∉ text.toList ∧
      Command.isReserved text = false)
    ⟨fun ⟨nonempty, stripped, unbroken, plain⟩ => ⟨nonempty, stripped, unbroken, plain⟩,
      fun ⟨nonempty, stripped, unbroken, plain⟩ => ⟨nonempty, stripped, unbroken, plain⟩⟩

namespace IsExpression

variable {text : String}

theorem ofLine (expression : IsExpression text) : Command.ofLine text = .calculate text := by
  refine Command.ofLine_of_means ?_
  rw [expression.stripped]
  exact .calculate expression.nonempty expression.plain

theorem not_isLast (expression : IsExpression text) : isLast text = false := by
  rw [← Bool.not_eq_true, ← ofLine_eq_quit_iff, expression.ofLine]
  simp

theorem not_isBlank (expression : IsExpression text) : Calculation.isBlank text = false := by
  rw [← Bool.not_eq_true]
  intro blank
  have vanishes : text.toList.dropWhile Text.isBlank = [] :=
    List.dropWhile_eq_nil_iff.mpr (List.all_eq_true.mp blank)
  have stripped := expression.stripped
  rw [Text.strip, Text.trim, vanishes] at stripped
  exact expression.nonempty stripped.symm

theorem exists_outcome [Arithmetic] (expression : IsExpression text) (history : History) :
    ∃ outcome, (Calculation.calculate history text).value.1 = some outcome := by
  have content := expression.not_isBlank
  cases valued : (Calculation.value text).value with
  | ok x => exact ⟨_, by rw [Calculation.value_calculate_of_ok content valued]⟩
  | error failure => exact ⟨_, by rw [Calculation.value_calculate_of_error content valued]⟩

end IsExpression

theorem splitOn_newline {text : List Char} (unbroken : '\n' ∉ text) :
    text.splitOn '\n' = [text] := by
  have each_unbroken : ∀ part ∈ [text], '\n' ∉ part := by simpa using unbroken
  have whole := List.splitOn_intercalate '\n' each_unbroken (List.cons_ne_nil text [])
  simpa using whole

theorem linesOf_join {lines : List String} (unbroken : ∀ line ∈ lines, '\n' ∉ line.toList) :
    linesOf (String.join (lines.map (· ++ "\n"))).toList = lines.map String.toList := by
  induction lines with
  | nil => rfl
  | cons line rest induction =>
      have first := splitOn_newline (unbroken line List.mem_cons_self)
      have later := induction fun other member => unbroken other (List.mem_cons_of_mem _ member)
      have ended : (String.join ((line :: rest).map (· ++ "\n"))).toList =
          line.toList ++ '\n' :: (String.join (rest.map (· ++ "\n"))).toList := by simp
      rw [ended, linesOf_append_newline, first, later]
      rfl

/-- Lines with line feeds between them are read as these lines, if the last of them is not
empty. -/
theorem linesOf_intercalate {lines : List String} (unbroken : ∀ line ∈ lines, '\n' ∉ line.toList)
    (nonempty : "" ∉ lines) :
    linesOf ("\n".intercalate lines).toList = lines.map String.toList := by
  rcases eq_or_ne lines [] with rfl | some_lines
  · rfl
  · have split : ("\n".intercalate lines).toList.splitOn '\n' = lines.map String.toList := by
      rw [String.toList_intercalate]
      refine List.splitOn_intercalate '\n' ?_ (by simpa using some_lines)
      simpa using unbroken
    have ends : (lines.map String.toList).getLast? ≠ some [] := by
      intro last
      obtain ⟨line, member, empty⟩ := List.mem_map.mp (List.mem_of_getLast? last)
      exact nonempty (String.toList_eq_nil_iff.mp empty ▸ member)
    rw [linesOf_eq, split, if_neg ends]

/-! ## The loop -/

/-- A line of a batch as a session prints it. -/
def prompted (line : String) : String := prompt ++ line ++ "\n"

/-- A session that reads expressions prints the lines of their batch, and makes the same notices. -/
theorem converse_expressions [Arithmetic] (history : History) {expressions : List String}
    (plain : ∀ expression ∈ expressions, IsExpression expression) :
    let batch := Batch.run history expressions
    (converse history expressions).value =
        (String.join (batch.value.lines.map prompted) ++ prompt ++ "\n", batch.value.history) ∧
      (converse history expressions).notices = batch.notices ∧
      batch.value.lines.length = expressions.length := by
  induction expressions generalizing history with
  | nil => exact ⟨rfl, rfl, rfl⟩
  | cons expression rest induction =>
      have first := plain expression List.mem_cons_self
      obtain ⟨outcome, comes⟩ := first.exists_outcome history
      obtain ⟨same, noted, counted⟩ := induction (Calculation.calculate history expression).value.2
        fun other member => plain other (List.mem_cons_of_mem _ member)
      simp only [converse_cons first.not_isLast, first.ofLine, respond, Batch.run]
      refine ⟨?_, ?_, ?_⟩
      · simp [comes, same, Batch.prepend, prompted, String.append_assoc]
      · simp [comes, noted]
      · simp [comes, Batch.prepend, counted]

end Session
end DeskCalculator
