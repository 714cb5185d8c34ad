import DeskCalculator.Proofs.Grammar.Reading
import DeskCalculator.Proofs.Token.Lexemes
import Mathlib.Data.List.TakeWhile

/-!
# Reading a text in parts

A text that is cut at ignored characters is read in two parts.  What is carried across the cut is
whether an operand stands before it, which the last token tells; it makes a difference for nothing
but a minus sign that comes first behind the cut.
-/

namespace DeskCalculator

/-! ## The operand before a text -/

namespace Lexeme

/-- Whether an operand stands behind a lexeme, given whether one stands before it. -/
def leavesOperand (before : Bool) : Lexeme → Bool
  | literal _ _ => true
  | closing => true
  | operator _ => false
  | opening => false
  | ignored _ => before

@[simp]
theorem State.hasOperand_settled (complete : Bool) : (settled complete).hasOperand = complete := by
  cases complete <;> rfl

@[simp]
theorem State.pending_settled (complete : Bool) : (settled complete).pending = [] := by
  cases complete <;> rfl

theorem ofSymbol?_cases {c : Char} {lexeme : Lexeme} (symbol : ofSymbol? c = some lexeme) :
    lexeme = .opening ∨ lexeme = .closing ∨ ∃ op, lexeme = .operator op := by
  rw [ofSymbol?] at symbol
  split at symbol
  · exact Or.inl (Option.some.inj symbol).symm
  split at symbol
  · exact Or.inr (Or.inl (Option.some.inj symbol).symm)
  · obtain ⟨op, -, rfl⟩ := Option.map_eq_some_iff.mp symbol
    exact Or.inr (Or.inr ⟨op, rfl⟩)

theorem leavesOperand_ofSymbol? {c : Char} {lexeme : Lexeme}
    (symbol : ofSymbol? c = some lexeme) (before : Bool) :
    leavesOperand before lexeme = decide (lexeme = .closing) := by
  rcases ofSymbol?_cases symbol with rfl | rfl | ⟨op, rfl⟩ <;> rfl

theorem hasOperand_step {state : State} {before : Bool}
    (known : state.hasOperand = state.pending.foldl leavesOperand before) (c : Char) :
    (state.step c).2.hasOperand =
      ((state.step c).1 ++ (state.step c).2.pending).foldl leavesOperand before := by
  by_cases numeral : isNumeral c
  · rw [State.step, if_pos numeral]
    cases state <;> rfl
  by_cases minus : c = '-'
  · rw [State.step, if_neg numeral, if_pos minus]
    cases state <;> rfl
  rw [State.step, if_neg numeral, if_neg minus]
  cases symbol : ofSymbol? c with
  | some lexeme => simp [List.foldl_append, leavesOperand_ofSymbol? symbol]
  | none => simp [List.foldl_append, leavesOperand, known]

theorem hasOperand_stateAfter {state : State} {before : Bool}
    (known : state.hasOperand = state.pending.foldl leavesOperand before) (text : List Char) :
    (stateAfter state text).hasOperand = (scanFrom state text).foldl leavesOperand before := by
  induction text generalizing state before with
  | nil => exact known
  | cons c rest induction =>
      have stepped := hasOperand_step known c
      rw [List.foldl_append] at stepped
      rw [stateAfter, scanFrom, List.foldl_append]
      exact induction stepped

end Lexeme

namespace Token

/-- Whether an operand ends with a token. -/
def endsOperand : Token → Bool
  | number _ => true
  | closing => true
  | operator _ _ => false
  | opening => false

/-- The last token tells whether an operand stands behind the lexemes that have been read. -/
theorem endsOperand_getLast? {lexemes : List Lexeme} {tokens : List Token}
    (read : (ofLexemes lexemes).value = .ok tokens) :
    tokens.getLast?.any endsOperand = lexemes.foldl Lexeme.leavesOperand false := by
  induction lexemes using List.reverseRecOn generalizing tokens with
  | nil =>
      obtain rfl : [] = tokens := Except.ok.inj read
      rfl
  | append_singleton lexemes lexeme induction =>
      rw [value_ofLexemes_append, value_ofLexemes_cons] at read
      obtain ⟨front, back, first, last, rfl⟩ := andThen_eq_ok read
      rw [List.foldl_append, ← induction first]
      obtain ⟨single, _, lexeme_read, nothing, rfl⟩ := andThen_eq_ok last
      obtain rfl : [] = _ := Except.ok.inj nothing
      cases lexeme with
      | ignored c =>
          obtain rfl : [] = single := Except.ok.inj lexeme_read
          simp [Lexeme.leavesOperand]
      | literal negative run =>
          cases number : Decimal.ofNumeral? run <;> simp [ofLexeme, number] at lexeme_read
          simp [← lexeme_read, endsOperand, Lexeme.leavesOperand]
      | _ =>
          obtain rfl := Except.ok.inj lexeme_read
          simp [endsOperand, ofOperator, Lexeme.leavesOperand]

end Token

/-! ## Cuts -/

namespace Lexeme

theorem scanFrom_settled_append (complete : Bool) {ignored : List Char}
    (meaningless : ∀ c ∈ ignored, isIgnored c) (rest : List Char) :
    scanFrom (.settled complete) (ignored ++ rest) =
      ignored.map .ignored ++ scanFrom (.settled complete) rest := by
  induction ignored with
  | nil => rfl
  | cons c others induction =>
      have first := meaningless c List.mem_cons_self
      have later := induction fun d member => meaningless d (List.mem_cons_of_mem c member)
      rw [List.cons_append, scanFrom_ignored complete first, later]
      rfl

/-- What stands behind a text is read from a settled state, unless a literal or a sign goes on. -/
theorem scan_append {before after : List Char}
    (apart : beginsNumeral after = false ∨
      stateAfter .expecting before = .settled (stateAfter .expecting before).hasOperand) :
    scan (before ++ after) =
      scan before ++ scanFrom (.settled (stateAfter .expecting before).hasOperand) after := by
  have whole := scanFrom_append .expecting before []
  have split := scanFrom_append .expecting before after
  rw [List.append_nil] at whole
  rw [scan, scan, split, whole, List.append_assoc]
  congr 1
  rcases apart with separate | settled
  · exact scanFrom_eq_pending _ separate
  · rw [settled]
    simp [scanFrom]

theorem beginsNumeral_append_of_ignored {ignored : List Char} (nonempty : ignored ≠ [])
    (meaningless : ∀ c ∈ ignored, isIgnored c) (after : List Char) :
    beginsNumeral (ignored ++ after) = false := by
  obtain ⟨c, others, rfl⟩ := List.exists_cons_of_ne_nil nonempty
  exact isNumeral_of_isIgnored (meaningless c List.mem_cons_self)

/-- A text that is cut at ignored characters is read in two parts, the second one from a state that
knows whether an operand stands before it. -/
theorem scan_append_ignored (before after : List Char) {ignored : List Char}
    (nonempty : ignored ≠ []) (meaningless : ∀ c ∈ ignored, isIgnored c) :
    scan (before ++ ignored ++ after) =
      scan before ++ ignored.map .ignored ++
        scanFrom (.settled ((scan before).foldl leavesOperand false)) after := by
  have known : (stateAfter .expecting before).hasOperand =
      (scan before).foldl leavesOperand false := hasOperand_stateAfter rfl before
  have separate := beginsNumeral_append_of_ignored nonempty meaningless after
  rw [List.append_assoc, scan_append (Or.inl separate), known,
    scanFrom_settled_append _ meaningless, List.append_assoc]

/-- Apart from a minus sign, what means something is read in the same way with and without an
operand before it. -/
theorem step_complete {c : Char} (meaningful : isIgnored c = false) (no_minus : c ≠ '-') :
    State.step .complete c = State.step .expecting c := by
  simp only [isIgnored, symbols, Bool.not_eq_false', Bool.or_eq_true, decide_eq_true_eq,
    List.mem_cons, List.not_mem_nil, or_false] at meaningful
  rcases meaningful with digit | rfl | rfl | rfl | rfl | rfl | rfl | rfl | rfl | rfl | rfl
  · simp [State.step, isNumeral, digit, State.extend]
  all_goals first | rfl | exact absurd rfl no_minus

theorem scanFrom_settled_eq (complete : Bool) (text : List Char) :
    scanFrom (.settled complete) text =
      (text.takeWhile isIgnored).map .ignored ++
        scanFrom (.settled complete) (text.dropWhile isIgnored) := by
  have meaningless : ∀ c ∈ text.takeWhile isIgnored, isIgnored c := fun _ => List.mem_takeWhile_imp
  have skipped := scanFrom_settled_append complete meaningless (text.dropWhile isIgnored)
  rwa [List.takeWhile_append_dropWhile] at skipped

theorem scanFrom_complete_minus {text rest : List Char}
    (minus : text.dropWhile isIgnored = '-' :: rest) :
    scanFrom .complete text =
      (text.takeWhile isIgnored).map .ignored ++ .operator .subtract :: scan rest := by
  have skipped := scanFrom_settled_eq true text
  rw [minus, State.settled, if_pos rfl, scanFrom_subtract_complete] at skipped
  exact skipped

theorem scanFrom_complete_other {text : List Char}
    (no_minus : ∀ rest, text.dropWhile isIgnored ≠ '-' :: rest) :
    scanFrom .complete text = scan text := by
  have skipped : scanFrom .complete text = _ := scanFrom_settled_eq true text
  have alone : scan text = _ := scanFrom_settled_eq false text
  rw [skipped, alone]
  congr 1
  cases shown : text.dropWhile isIgnored with
  | nil => rfl
  | cons c rest =>
      have meaningful : isIgnored c = false := by
        simpa [shown] using List.head?_dropWhile_not isIgnored text
      have other : c ≠ '-' := by
        rintro rfl
        exact no_minus rest shown
      change scanFrom .complete (c :: rest) = scanFrom .expecting (c :: rest)
      rw [scanFrom, scanFrom, step_complete meaningful other]

end Lexeme

namespace Token

theorem value_ofLexemes_ignored (ignored : List Char) :
    (ofLexemes (ignored.map .ignored)).value = .ok [] := by
  induction ignored with
  | nil => rfl
  | cons c others induction =>
      rw [List.map_cons, value_ofLexemes_cons, induction]
      rfl

/-- The tokens of a text behind others, or the cause of its failure.  If an operand ends with these,
a minus sign that comes first among ignored characters is a subtraction. -/
def behind (front : List Token) (text : String) : Except Cause (List Token) :=
  match front.getLast?.any endsOperand, text.toList.dropWhile Lexeme.isIgnored with
  | true, '-' :: rest =>
      ((ofSource (String.ofList rest)).value.mapError Failure.cause).map (ofOperator .subtract :: ·)
  | _, _ => (ofSource text).value.mapError Failure.cause

theorem behind_eq (front : List Token) (text : String) :
    behind front text = (ofLexemes
      (Lexeme.scanFrom (.settled (front.getLast?.any endsOperand)) text.toList)).value := by
  cases operand : front.getLast?.any endsOperand with
  | false =>
      rw [behind, operand, mapError_ofSource]
      rfl
  | true =>
      rw [behind, operand, Lexeme.State.settled, if_pos rfl]
      split
      next rest _ minus =>
        rw [Lexeme.scanFrom_complete_minus minus, value_ofLexemes_append,
          value_ofLexemes_ignored, nil_andThen, value_ofLexemes_cons, ofLexeme, andThen_ok,
          mapError_ofSource, String.toList_ofList]
        rfl
      next no_minus =>
        rw [Lexeme.scanFrom_complete_other fun rest => no_minus rest rfl, mapError_ofSource]

/--
A text that is cut at ignored characters has the tokens of its two parts.  They are read one without
the other, but for a minus sign that comes first in the second part, which is a subtraction if the
first part ends in an operand.  If a part fails, so does the text, and the first part fails first.
-/
theorem ofSource_append_ignored {before ignored after : String} (nonempty : ignored ≠ "")
    (meaningless : ∀ c ∈ ignored.toList, Lexeme.isIgnored c) :
    (ofSource (before ++ ignored ++ after)).value.mapError Failure.cause = do
      let front ← (ofSource before).value.mapError Failure.cause
      let later ← behind front after
      return front ++ later := by
  have characters : ignored.toList ≠ [] := by simpa using nonempty
  rw [mapError_ofSource, String.toList_append, String.toList_append,
    Lexeme.scan_append_ignored _ _ characters meaningless, value_ofLexemes_append,
    value_ofLexemes_append, value_ofLexemes_ignored, andThen_nil, mapError_ofSource]
  cases read : (ofLexemes (Lexeme.scan before.toList)).value with
  | error cause => rfl
  | ok front =>
      rw [← endsOperand_getLast? read, ← behind_eq]
      rfl

/-- Behind `(7)` a minus sign is a subtraction, behind `7*` the sign of a literal, and a literal
that is no number is reported as it is read. -/
theorem ofSource_cut_before_minus :
    (ofSource ("(7)" ++ " x" ++ "€-2")).value.mapError Failure.cause =
        .ok [.opening, .number 7, .closing, .ofOperator .subtract, .number 2] ∧
      (ofSource ("7*" ++ " x" ++ "€-2")).value.mapError Failure.cause =
        .ok [.number 7, .ofOperator .multiply, .number (-2)] ∧
      (ofSource ("7" ++ " x" ++ "-.")).value.mapError Failure.cause =
        .error (.invalidNumber ".") ∧
      (ofSource ("-." ++ " x" ++ "-1.2.")).value.mapError Failure.cause =
        .error (.invalidNumber "-.") := by
  have meaningless : ∀ c ∈ " x".toList, Lexeme.isIgnored c :=
    List.all_eq_true.mp rfl
  have cut (before after : String) :=
    @ofSource_append_ignored before " x" after (by decide) meaningless
  refine ⟨(cut _ _).trans ?_, (cut _ _).trans ?_, (cut _ _).trans ?_, (cut _ _).trans ?_⟩
  · rfl
  · rfl
  · rfl
  · rfl

end Token
end DeskCalculator
