import DeskCalculator.Proofs.Token.Runs

/-!
# Characters that mean nothing

Characters that mean nothing can be put into a text, or taken out, and the tokens stay the same,
unless a literal goes on behind them.  They settle what has been read in front of them, as anything
but a digit or point does.
-/

namespace DeskCalculator

namespace Lexeme

theorem State.eq_settled {state : State} (no_literal : state.literal? = none)
    (unsigned : state ≠ .signed) : state = .settled state.hasOperand := by
  cases state with
  | reading negative reversed => simp [State.literal?] at no_literal
  | signed => exact absurd rfl unsigned
  | _ => rfl

end Lexeme

namespace Token

open Lexeme (scan scanFrom stateAfter isIgnored isNumeral)

theorem value_ofLexemes_ignored_between (before after : List Char) {ignored : List Char}
    (meaningless : ∀ c ∈ ignored, isIgnored c)
    (apart : beginsNumeral after = false ∨
      stateAfter .expecting before = .settled (stateAfter .expecting before).hasOperand) :
    (ofLexemes (scan (before ++ ignored ++ after))).value =
      (ofLexemes (scan (before ++ after))).value := by
  rcases eq_or_ne ignored [] with rfl | nonempty
  · rw [List.append_nil]
  · have known : (stateAfter .expecting before).hasOperand =
        (scan before).foldl Lexeme.leavesOperand false := Lexeme.hasOperand_stateAfter rfl before
    rw [Lexeme.scan_append_ignored _ _ nonempty meaningless, ← known, Lexeme.scan_append apart,
      value_ofLexemes_append, value_ofLexemes_append, value_ofLexemes_append,
      value_ofLexemes_ignored, andThen_nil]

theorem value_ofLexemes_append_of_failure {before after : List Char} {cause : Cause}
    (separate : beginsNumeral after = false)
    (failed : (ofLexemes (scan before)).value = .error cause) :
    (ofLexemes (scan (before ++ after))).value = .error cause := by
  rw [Lexeme.scan_append (Or.inl separate), value_ofLexemes_append, failed, andThen_error]

/-- Whether a text ends inside a literal: with a digit or point, or with a minus sign that is the
sign of a number. -/
def endsInLiteral (text : List Char) : Bool :=
  text.getLast?.any isNumeral ||
    (decide (text.getLast? = some '-') && expectsOperand text.dropLast)

/-- Behind a text that does not end inside a literal nothing is pending, or the text in front of a
minus sign at its end fails to be read. -/
theorem settled_or_failed {text : List Char} (outside : endsInLiteral text = false) :
    stateAfter .expecting text = .settled (stateAfter .expecting text).hasOperand ∨
      ∃ front cause, text = front ++ ['-'] ∧
        (ofLexemes (scan front)).value = .error cause := by
  rw [endsInLiteral, Bool.or_eq_false_iff, ← Lexeme.isSome_literal?_stateAfter] at outside
  obtain ⟨no_literal, no_sign⟩ := outside
  by_cases signed : stateAfter .expecting text = .signed
  · obtain ⟨minus, expecting⟩ := (Lexeme.stateAfter_eq_signed_iff text).mp signed
    refine Or.inr ⟨text.dropLast, ?_⟩
    cases read : (ofLexemes (scan text.dropLast)).value with
    | error cause => exact ⟨cause, (List.dropLast_append_getLast? '-' minus).symm, rfl⟩
    | ok tokens =>
        -- The minus sign stands where an operand is expected, so it would be a sign.
        have success : (ofSource (String.ofList text.dropLast)).value = .ok tokens := by
          rw [value_ofSource_eq_ok_iff, String.toList_ofList, read]
        rw [expectsOperand_eq success, expecting] at no_sign
        simp [minus] at no_sign
  · exact Or.inl (Lexeme.State.eq_settled (by simpa using no_literal) signed)

end Token

namespace Evaluation

variable [Arithmetic]

/-- The value of a text depends on its tokens alone, and its failure on the literal that fails. -/
theorem value_evaluate_congr {left right : String}
    (same : (Token.ofSource left).value.mapError Failure.cause =
      (Token.ofSource right).value.mapError Failure.cause) :
    (evaluate left).value =
      (evaluate right).value.mapError ({ · with expression := some left }) := by
  rw [Token.mapError_ofSource, Token.mapError_ofSource] at same
  cases read : (Token.ofLexemes (Lexeme.scan left.toList)).value with
  | error cause =>
      obtain ⟨literal, rfl⟩ := Token.exists_invalidNumber read
      have left_misread := Token.value_ofSource_of_invalidNumber read
      have right_misread := Token.value_ofSource_of_invalidNumber (same.symm.trans read)
      rw [value_evaluate_of_failure left_misread, value_evaluate_of_failure right_misread]
      rfl
  | ok tokens =>
      have left_read := Token.value_ofSource_eq_ok_iff.mpr read
      have right_read := Token.value_ofSource_eq_ok_iff.mpr (same.symm.trans read)
      rw [value_evaluate_of_read left_read, value_evaluate_of_read right_read]
      exact value_ofItems_congr (Postfix.isMarked_of_ofSource left_read) _ _

theorem mapError_evaluate_congr {left right : String}
    (same : (Token.ofSource left).value.mapError Failure.cause =
      (Token.ofSource right).value.mapError Failure.cause) :
    (evaluate left).value.mapError Failure.cause =
      (evaluate right).value.mapError Failure.cause := by
  rw [value_evaluate_congr same]
  cases (evaluate right).value <;> rfl

end Evaluation

namespace Token

/--
Characters that mean nothing can be put between two texts, or taken out: the tokens are the same, or
the same literal fails, unless the first text ends inside a literal and the second begins with a
digit or point.  Hence the two texts have the same value, or there is none for the same cause.
-/
theorem ofSource_ignored_between [Arithmetic] {before ignored after : String}
    (meaningless : ∀ c ∈ ignored.toList, Lexeme.isIgnored c)
    (apart : ¬ (endsInLiteral before.toList ∧ beginsNumeral after.toList)) :
    (ofSource (before ++ ignored ++ after)).value.mapError Failure.cause =
        (ofSource (before ++ after)).value.mapError Failure.cause ∧
      (Evaluation.evaluate (before ++ ignored ++ after)).value.mapError Failure.cause =
        (Evaluation.evaluate (before ++ after)).value.mapError Failure.cause := by
  have same : (ofSource (before ++ ignored ++ after)).value.mapError Failure.cause =
      (ofSource (before ++ after)).value.mapError Failure.cause := by
    simp only [mapError_ofSource, String.toList_append]
    cases begins : beginsNumeral after.toList with
    | false => exact value_ofLexemes_ignored_between _ _ meaningless (Or.inl begins)
    | true =>
        have outside : endsInLiteral before.toList = false := by simpa [begins] using apart
        rcases settled_or_failed outside with settled | ⟨front, cause, split, failed⟩
        · exact value_ofLexemes_ignored_between _ _ meaningless (Or.inr settled)
        · -- The failure in front of the minus sign comes first, whatever follows.
          rw [split, List.append_assoc, List.append_assoc, List.append_assoc,
            value_ofLexemes_append_of_failure rfl failed,
            value_ofLexemes_append_of_failure rfl failed]
  exact ⟨same, Evaluation.mapError_evaluate_congr same⟩

/-- A literal may begin at once behind the minus sign of `(7)-`, which is a subtraction, and behind
that of `1..(-`, which a failure comes before. -/
theorem ofSource_ignored_behind_minus :
    (ofSource ("(7)-" ++ " €" ++ ".5")).value.mapError Failure.cause =
        .ok [.opening, .number 7, .closing, .ofOperator .subtract, .number 0.5] ∧
      (Evaluation.evaluate ("1..(-" ++ "\t" ++ "2")).value.mapError Failure.cause =
        .error (.invalidNumber "1..") := by
  have blank : ∀ c ∈ "\t".toList, Lexeme.isIgnored c := List.all_eq_true.mp rfl
  have meaningless : ∀ c ∈ " €".toList, Lexeme.isIgnored c := List.all_eq_true.mp rfl
  constructor
  · exact (ofSource_ignored_between meaningless (by decide)).1.trans rfl
  · exact (ofSource_ignored_between blank (by decide)).2.trans rfl

-- Inside a literal a blank does make a difference.
example : (ofSource "- 5").value = .ok [.ofOperator .subtract, .number 5] ∧
    (ofSource "-5").value = .ok [.number (-5)] := ⟨rfl, rfl⟩

end Token
end DeskCalculator
