import DeskCalculator.CommandLine
import DeskCalculator.Proofs.Text.Integer

/-!
# Command lines that name expressions

Settings in front of a double hyphen are read as they are written, and whatever stands behind it is
an expression.  The answer to a command line with expressions is their batch on a new history.
-/

namespace DeskCalculator

namespace Argument

theorem ofText_eq_word {text : String} (plain : text.toList.head? ≠ some '-') :
    ofText text = .ok (.word text) := by
  rw [ofText]
  split
  next lone => simp [lone] at plain
  next rest shown => simp [shown] at plain
  next => rfl

theorem ofTexts_cons {text : String} {argument : Argument} (other : text ≠ "--")
    (read : ofText text = .ok argument) {rest : List String} {arguments : List Argument}
    (later : ofTexts rest = .ok arguments) :
    ofTexts (text :: rest) = .ok (argument :: arguments) := by
  rw [ofTexts, if_neg other, read, later]
  rfl

theorem ofTexts_separator (rest : List String) :
    ofTexts ("--" :: rest) = .ok (.separator :: rest.map .word) := rfl

end Argument

namespace Request

theorem readFrom_words {state : State} (going : state.words ≠ .ended)
    (recognized : state.unrecognized = []) (words : List String) :
    readFrom state (words.map .word) =
      .work { state.settings with expressions := state.settings.expressions ++ words } := by
  induction words generalizing state with
  | nil => simp [readFrom, recognized]
  | cons word rest induction =>
      have taking : (state.word word).words ≠ .ended := by simp [State.word, going]
      have known : (state.word word).unrecognized = [] := by simp [State.word, going, recognized]
      rw [List.map_cons, readFrom, induction taking known]
      simp [State.word, going]

/-- Both settings, the double hyphen and words ask to work under these settings. -/
theorem ofTexts_settings {limit : Int} {text : String}
    (written : Text.Integer.write? limit = some text) (positive : 0 < limit) (level : Level)
    (expressions : List String) :
    ofTexts (["--history-limit", text, "--log-level", level.name, "--"] ++ expressions) =
      .work ⟨limit, level, expressions⟩ := by
  have plain := Text.Integer.head?_toList_write positive written
  have value_word := Argument.ofText_eq_word plain
  have value_not_last : text ≠ "--" := by
    rintro rfl
    exact plain rfl
  have level_word : Argument.ofText level.name = .ok (.word level.name) := by
    cases level <;> decide
  have level_not_last : level.name ≠ "--" := by cases level <;> decide
  have limit_option : Argument.ofText "--history-limit" = .ok (.set .historyLimit none) := by
    decide
  have level_option : Argument.ofText "--log-level" = .ok (.set .logLevel none) := by decide
  have arguments : Argument.ofTexts
      (["--history-limit", text, "--log-level", level.name, "--"] ++ expressions) =
        .ok ([.set .historyLimit none, .word text, .set .logLevel none, .word level.name,
          .separator] ++ expressions.map .word) :=
    Argument.ofTexts_cons (by decide) limit_option <|
      Argument.ofTexts_cons value_not_last value_word <|
        Argument.ofTexts_cons (by decide) level_option <|
          Argument.ofTexts_cons level_not_last level_word <|
            Argument.ofTexts_separator expressions
  have read := Text.Integer.read?_write written
  rw [ofTexts, arguments]
  simp [readFrom, State.initial, State.endWords, State.set, read, State.separator, readFrom_words]

end Request

namespace CommandLine

/-- A command line that names expressions comes to their batch. -/
theorem value_run_of_work [Arithmetic] {arguments : List String} {settings : Settings}
    {limit : Limit} (asks : Request.ofTexts arguments = .work settings)
    (bounded : Limit.ofInt settings.historyLimit = .ok limit)
    (named : settings.expressions ≠ []) (input : String) :
    ∃ errors, (run arguments input).value =
      let batch := (Batch.run (.empty (some limit)) settings.expressions).value
      .ok ⟨batch.status, batch.output, errors⟩ := by
  rw [run, asks]
  simp only [bounded, work, List.isEmpty_iff, named, if_false]
  exact ⟨_, rfl⟩

end CommandLine

end DeskCalculator
