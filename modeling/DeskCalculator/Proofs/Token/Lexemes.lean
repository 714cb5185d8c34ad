import DeskCalculator.Token.OfSource
import Mathlib.Tactic

/-!
# The tokens of lexemes

The tokens of two lists of lexemes together are those of the first followed by those of the second.
Nothing but a literal fails, the first one that is no number decides the failure, and every operator
is marked with its own arity.
-/

namespace DeskCalculator
namespace Token

/-! ## Numbers -/

/-- Whether a token is a number. -/
def isNumber : Token → Bool
  | number _ => true
  | _ => false

theorem exists_number {token : Token} (isNumber : token.isNumber) :
    ∃ value, token = .number value := by
  cases token with
  | number value => exact ⟨value, rfl⟩
  | _ => simp [Token.isNumber] at isNumber

/-! ## Readings in a row -/

/-- Two readings in a row: their tokens in order, or the failure that comes first. -/
def andThen (first later : Except Cause (List Token)) : Except Cause (List Token) := do
  return (← first) ++ (← later)

@[simp]
theorem andThen_error (cause : Cause) (later : Except Cause (List Token)) :
    andThen (.error cause) later = .error cause := rfl

@[simp]
theorem andThen_ok (tokens : List Token) (later : Except Cause (List Token)) :
    andThen (.ok tokens) later = later.map (tokens ++ ·) := by
  cases later <;> rfl

theorem nil_andThen (later : Except Cause (List Token)) : andThen (.ok []) later = later := by
  cases later <;> rfl

theorem andThen_nil (first : Except Cause (List Token)) : andThen first (.ok []) = first := by
  cases first <;> simp [Except.map]

theorem andThen_assoc (first middle last : Except Cause (List Token)) :
    andThen (andThen first middle) last = andThen first (andThen middle last) := by
  cases first <;> cases middle <;> cases last <;> simp [Except.map]

theorem andThen_eq_ok {first later : Except Cause (List Token)} {tokens : List Token}
    (success : andThen first later = .ok tokens) :
    ∃ front back, first = .ok front ∧ later = .ok back ∧ tokens = front ++ back := by
  cases first with
  | error cause => simp at success
  | ok front =>
      cases later with
      | error cause => simp [Except.map] at success
      | ok back =>
          rw [andThen_ok] at success
          exact ⟨front, back, rfl, rfl, (Except.ok.inj success).symm⟩

/-! ## Lexemes -/

/-- The tokens of one lexeme: none of an ignored character, and a failure of a literal that is no
number. -/
def ofLexeme : Lexeme → Except Cause (List Token)
  | .literal negative run =>
      match Decimal.ofNumeral? run with
      | none => .error (.invalidNumber (literalText negative run))
      | some d => .ok [.number (d.toFloat negative)]
  | .operator op => .ok [ofOperator op]
  | .opening => .ok [.opening]
  | .closing => .ok [.closing]
  | .ignored _ => .ok []

theorem value_ofLexemes_cons (lexeme : Lexeme) (rest : List Lexeme) :
    (ofLexemes (lexeme :: rest)).value = andThen (ofLexeme lexeme) (ofLexemes rest).value := by
  cases lexeme with
  | literal negative run =>
      cases read : Decimal.ofNumeral? run <;> simp [ofLexemes, ofLexeme, read]
  | operator op => simp [ofLexemes, ofLexeme]
  | opening => simp [ofLexemes, ofLexeme]
  | closing => simp [ofLexemes, ofLexeme]
  | ignored c =>
      rw [ofLexeme, nil_andThen]
      cases blank : Text.isBlank c <;> simp [ofLexemes, blank]

theorem value_ofLexemes_append (front back : List Lexeme) :
    (ofLexemes (front ++ back)).value =
      andThen (ofLexemes front).value (ofLexemes back).value := by
  induction front with
  | nil => exact (nil_andThen _).symm
  | cons lexeme rest induction =>
      rw [List.cons_append, value_ofLexemes_cons, induction, value_ofLexemes_cons, andThen_assoc]

/-- The reading of a text is that of its lexemes, and a failure keeps the text. -/
theorem value_ofSource (source : String) :
    (ofSource source).value =
      (ofLexemes (Lexeme.scan source.toList)).value.mapError (·.failure (some source)) := by
  cases read : (ofLexemes (Lexeme.scan source.toList)).value <;>
    simp [ofSource, read, Except.mapError]

theorem value_ofSource_of_invalidNumber {source literal : String}
    (misread : (ofLexemes (Lexeme.scan source.toList)).value = .error (.invalidNumber literal)) :
    (ofSource source).value = .error ⟨.invalidNumber literal, some source⟩ := by
  rw [value_ofSource, misread]
  rfl

theorem mapError_ofSource (source : String) :
    (ofSource source).value.mapError Failure.cause =
      (ofLexemes (Lexeme.scan source.toList)).value := by
  rw [value_ofSource]
  cases (ofLexemes (Lexeme.scan source.toList)).value <;> simp [Except.mapError]

theorem value_ofSource_eq_ok_iff {source : String} {tokens : List Token} :
    (ofSource source).value = .ok tokens ↔
      (ofLexemes (Lexeme.scan source.toList)).value = .ok tokens := by
  rw [value_ofSource]
  cases (ofLexemes (Lexeme.scan source.toList)).value <;> simp [Except.mapError]

theorem exists_invalidNumber_of_ofLexeme {lexeme : Lexeme} {cause : Cause}
    (failure : ofLexeme lexeme = .error cause) : ∃ literal, cause = .invalidNumber literal := by
  cases lexeme with
  | literal negative run =>
      cases read : Decimal.ofNumeral? run <;> simp [ofLexeme, read] at failure
      exact ⟨_, failure.symm⟩
  | _ => simp [ofLexeme] at failure

theorem exists_invalidNumber {lexemes : List Lexeme} {cause : Cause}
    (failure : (ofLexemes lexemes).value = .error cause) :
    ∃ literal, cause = .invalidNumber literal := by
  induction lexemes with
  | nil => simp [ofLexemes] at failure
  | cons lexeme rest induction =>
      rw [value_ofLexemes_cons] at failure
      cases first : ofLexeme lexeme with
      | ok tokens =>
          cases later : (ofLexemes rest).value with
          | ok others => simp [first, later, Except.map] at failure
          | error other =>
              rw [first, andThen_ok, later] at failure
              exact induction (later.trans (congrArg _ (Except.error.inj failure)))
      | error other =>
          rw [first, andThen_error] at failure
          obtain rfl := Except.error.inj failure
          exact exists_invalidNumber_of_ofLexeme first

/-- The failure of a text is that of a literal, and keeps the text. -/
theorem exists_invalidNumber_of_ofSource {source : String} {failure : Failure}
    (misread : (ofSource source).value = .error failure) :
    ∃ literal, failure = ⟨.invalidNumber literal, some source⟩ := by
  cases read : (ofLexemes (Lexeme.scan source.toList)).value with
  | ok tokens => simp [value_ofSource_eq_ok_iff.mpr read] at misread
  | error cause =>
      obtain ⟨literal, rfl⟩ := exists_invalidNumber read
      rw [value_ofSource_of_invalidNumber read] at misread
      exact ⟨literal, (Except.error.inj misread).symm⟩

/-! ## Marks -/

/-- Whether an operator is marked with its own arity. -/
def isPlain : Token → Bool
  | operator op arity => arity == op.arity
  | _ => true

theorem isPlain_of_ofLexeme {lexeme : Lexeme} {tokens : List Token}
    (read : ofLexeme lexeme = .ok tokens) : ∀ token ∈ tokens, token.isPlain := by
  cases lexeme with
  | literal negative run =>
      cases number : Decimal.ofNumeral? run <;> simp [ofLexeme, number] at read
      simp [← read, isPlain]
  | _ =>
      obtain rfl := Except.ok.inj read
      simp [isPlain, ofOperator]

theorem isPlain_of_ofLexemes {lexemes : List Lexeme} {tokens : List Token}
    (read : (ofLexemes lexemes).value = .ok tokens) : ∀ token ∈ tokens, token.isPlain := by
  induction lexemes generalizing tokens with
  | nil =>
      obtain rfl : [] = tokens := Except.ok.inj read
      simp
  | cons lexeme rest induction =>
      rw [value_ofLexemes_cons] at read
      obtain ⟨front, back, first, later, rfl⟩ := andThen_eq_ok read
      intro token member
      rcases List.mem_append.mp member with inFront | inBack
      · exact isPlain_of_ofLexeme first token inFront
      · exact induction later token inBack

end Token
end DeskCalculator
