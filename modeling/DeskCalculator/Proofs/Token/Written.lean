import DeskCalculator.Proofs.Numeric.Moderate
import DeskCalculator.Proofs.Token.Composition

/-!
# Reading written tokens

Tokens that have been read from a text can be written with spaces between them and read again.  A
minus sign is written for a subtraction as well as in front of a negative number, but a negative
number is read only where no operand stands before it.
-/

namespace DeskCalculator

/-! ## Where signs stand -/

namespace Lexeme

/-- Whether a minus sign has been read for the literal that is being read or may follow. -/
def State.isSigned : State → Bool
  | expecting => false
  | signed => true
  | reading negative _ => negative
  | complete => false

/-- Whether a lexeme is a literal with a minus sign. -/
def isNegative : Lexeme → Bool
  | literal negative _ => negative
  | _ => false

/-- Literals with a minus sign stand where an operand is expected, given whether an operand stands
in front of the lexemes. -/
def SignsFit : Bool → List Lexeme → Prop
  | _, [] => True
  | operand, lexeme :: rest =>
      (lexeme.isNegative → operand = false) ∧ SignsFit (leavesOperand operand lexeme) rest

theorem signsFit_append (operand : Bool) (front back : List Lexeme) :
    SignsFit operand (front ++ back) ↔
      SignsFit operand front ∧ SignsFit (front.foldl leavesOperand operand) back := by
  induction front generalizing operand with
  | nil => simp [SignsFit]
  | cons lexeme rest induction => simp [SignsFit, induction, and_assoc]

theorem SignsFit.concat {operand : Bool} {front : List Lexeme} (fits : SignsFit operand front)
    {lexeme : Lexeme} (positive : lexeme.isNegative = false) :
    SignsFit operand (front ++ [lexeme]) := by
  rw [signsFit_append]
  exact ⟨fits, by simp [positive], trivial⟩

theorem isNegative_ofSymbol? {c : Char} {lexeme : Lexeme} (symbol : ofSymbol? c = some lexeme) :
    lexeme.isNegative = false := by
  rcases ofSymbol?_cases symbol with rfl | rfl | ⟨op, rfl⟩ <;> rfl

section

variable {state : State} {operand : Bool}
  (known : state.hasOperand = state.pending.foldl leavesOperand operand)
  (fits : state.isSigned → operand = false)
include fits

theorem signsFit_pending : SignsFit operand state.pending := by
  cases state with
  | reading negative reversed => exact ⟨fits, trivial⟩
  | signed => exact ⟨by simp [isNegative], trivial⟩
  | _ => trivial

include known

/-- The lexemes that end with a character fit, and a sign that stands behind it will fit. -/
theorem signsFit_step (c : Char) :
    SignsFit operand (state.step c).1 ∧
      ((state.step c).2.isSigned → (state.step c).1.foldl leavesOperand operand = false) := by
  have pending := signsFit_pending fits
  by_cases numeral : isNumeral c
  · rw [State.step, if_pos numeral]
    refine ⟨trivial, fun signed => fits ?_⟩
    cases state <;> exact signed
  by_cases minus : c = '-'
  · rw [State.step, if_neg numeral, if_pos minus]
    cases expected : state.hasOperand with
    | true => exact ⟨pending.concat rfl, by simp [State.isSigned]⟩
    | false => exact ⟨pending, fun _ => known.symm.trans expected⟩
  · rw [State.step, if_neg numeral, if_neg minus]
    have unsigned (complete : Bool) : (State.settled complete).isSigned = false := by
      cases complete <;> rfl
    cases symbol : ofSymbol? c with
    | some lexeme => exact ⟨pending.concat (isNegative_ofSymbol? symbol), by simp [unsigned]⟩
    | none => exact ⟨pending.concat rfl, by simp [unsigned]⟩

theorem signsFit_scanFrom (text : List Char) : SignsFit operand (scanFrom state text) := by
  induction text generalizing state operand with
  | nil => exact signsFit_pending fits
  | cons c rest induction =>
      obtain ⟨fit, next⟩ := signsFit_step known fits c
      have stepped := hasOperand_step known c
      rw [List.foldl_append] at stepped
      exact (signsFit_append ..).mpr ⟨fit, induction stepped next⟩

end

theorem signsFit_scan (text : List Char) : SignsFit false (scan text) :=
  signsFit_scanFrom rfl (fun _ => rfl) text

/-- A literal is read behind an operand as where one is expected, but for a minus sign. -/
theorem scanFrom_settled_literal {negative operand : Bool} (fits : negative → operand = false)
    {run : List Char} (nonempty : run ≠ []) (numerals : ∀ c ∈ run, isNumeral c) :
    scanFrom (.settled operand) (Layout.sign negative ++ run) = [.literal negative run] := by
  have expected := @scanFrom_literal negative run [] nonempty numerals rfl
  rw [List.append_nil] at expected
  cases operand with
  | false => exact expected
  | true =>
      obtain rfl : negative = false := by simpa using fits
      obtain ⟨c, others, rfl⟩ := List.exists_cons_of_ne_nil nonempty
      have numeral := numerals c List.mem_cons_self
      have meaningful : isIgnored c = false := by
        by_contra ignored
        simp [isNumeral_of_isIgnored (Bool.of_not_eq_false ignored)] at numeral
      refine (scanFrom_complete_other fun rest minus => ?_).trans expected
      rw [Layout.sign, if_neg Bool.false_ne_true, List.nil_append,
        List.dropWhile_cons_of_neg (by simp [meaningful])] at minus
      obtain ⟨rfl, -⟩ := List.cons.inj minus
      simp [isNumeral] at numeral

end Lexeme

namespace Token

/-- Whether a token is a number with a minus sign. -/
def isNegative : Token → Bool
  | number x => Binary64.isNegative x
  | _ => false

/-- Numbers with a minus sign stand first, behind an operator or behind an opening parenthesis. -/
def SignsFit (tokens : List Token) : Prop :=
  ∀ front token back, tokens = front ++ token :: back → token.isNegative →
    front.getLast?.any endsOperand = false

theorem signsFit_concat {tokens : List Token} {token : Token} :
    SignsFit (tokens ++ [token]) ↔
      SignsFit tokens ∧ (token.isNegative → tokens.getLast?.any endsOperand = false) := by
  constructor
  · intro fits
    refine ⟨fun front other back split => fits front other (back ++ [token]) ?_,
      fits tokens token [] rfl⟩
    rw [split, List.append_assoc, List.cons_append]
  · rintro ⟨fits, last⟩ front other back split
    cases back using List.reverseRecOn with
    | nil =>
        obtain ⟨rfl, same⟩ := List.append_inj' split rfl
        obtain rfl := List.singleton_inj.mp same
        exact last
    | append_singleton back final =>
        rw [← List.cons_append, ← List.append_assoc] at split
        exact fits front other back (List.append_inj' split rfl).1

theorem ofLexeme_cases {lexeme : Lexeme} {tokens : List Token}
    (read : ofLexeme lexeme = .ok tokens) :
    tokens = [] ∨ ∃ token, tokens = [token] ∧ token.isNegative = lexeme.isNegative := by
  cases lexeme with
  | literal negative run =>
      cases number : Decimal.ofNumeral? run with
      | none => simp [ofLexeme, number] at read
      | some d =>
          have sign := Binary64.isNegative_ofMagnitude negative
            (Binary64.nearest_le_infinityWord d.numerator d.denominator)
          refine Or.inr ⟨.number (d.toFloat negative), ?_, sign⟩
          simpa [ofLexeme, number] using read.symm
  | ignored c => exact Or.inl (Except.ok.inj read).symm
  | _ => exact Or.inr ⟨_, (Except.ok.inj read).symm, rfl⟩

theorem signsFit_of_ofLexemes {lexemes : List Lexeme} {tokens : List Token}
    (fits : Lexeme.SignsFit false lexemes) (read : (ofLexemes lexemes).value = .ok tokens) :
    SignsFit tokens := by
  induction lexemes using List.reverseRecOn generalizing tokens with
  | nil =>
      obtain rfl : [] = tokens := Except.ok.inj read
      simp [SignsFit]
  | append_singleton lexemes lexeme induction =>
      rw [value_ofLexemes_append, value_ofLexemes_cons] at read
      obtain ⟨front, back, first, last, rfl⟩ := andThen_eq_ok read
      obtain ⟨single, _, lexeme_read, nothing, rfl⟩ := andThen_eq_ok last
      obtain rfl : [] = _ := Except.ok.inj nothing
      obtain ⟨front_fits, lexeme_fits, -⟩ := (Lexeme.signsFit_append ..).mp fits
      have front_tokens := induction front_fits first
      rw [List.append_nil]
      rcases ofLexeme_cases lexeme_read with rfl | ⟨token, rfl, sign⟩
      · rwa [List.append_nil]
      · refine signsFit_concat.mpr ⟨front_tokens, fun negative => ?_⟩
        rw [endsOperand_getLast? first]
        exact lexeme_fits (sign ▸ negative)

/-! ## Written tokens -/

/-- Tokens as they are written, with a space between each and the next. -/
def written (tokens : List Token) : String := " ".intercalate (tokens.map text)

/-- What is written of a token reads as the token, behind an operand as well as where one is
expected; a minus sign only where one is expected. -/
theorem value_ofLexemes_text {token : Token} (plain : token.isPlain)
    (moderate : ∀ x, token = .number x → Binary64.IsModerate x) {operand : Bool}
    (fits : token.isNegative → operand = false) :
    (ofLexemes (Lexeme.scanFrom (.settled operand) token.text.toList)).value = .ok [token] := by
  cases token with
  | number x =>
      obtain ⟨run, d, shown, numerals, number, value⟩ := (moderate x rfl).exists_write
      have nonempty : run ≠ [] := by
        rintro rfl
        simp [Decimal.ofNumeral?] at number
      have sign : Binary64.isNegative x → operand = false := fits
      have read : ofLexeme (.literal (Binary64.isNegative x) run) = .ok [.number x] := by
        simp [ofLexeme, number, value]
      rw [text, shown, Lexeme.scanFrom_settled_literal sign nonempty numerals,
        value_ofLexemes_cons, read]
      rfl
  | operator op arity =>
      obtain rfl : arity = op.arity := by simpa [isPlain] using plain
      cases op <;> cases operand <;> rfl
  | opening => cases operand <;> rfl
  | closing => cases operand <;> rfl

theorem value_ofLexemes_written_concat (tokens : List Token) (token : Token) :
    (ofLexemes (Lexeme.scan (written (tokens ++ [token])).toList)).value =
      andThen (ofLexemes (Lexeme.scan (written tokens).toList)).value
        (ofLexemes (Lexeme.scanFrom (.settled
          ((Lexeme.scan (written tokens).toList).foldl Lexeme.leavesOperand false))
            token.text.toList)).value := by
  rcases eq_or_ne tokens [] with rfl | nonempty
  · exact (nil_andThen _).symm
  · have split : (written (tokens ++ [token])).toList =
        (written tokens).toList ++ [' '] ++ token.text.toList := by
      rw [written, List.map_append, String.intercalate_append_of_ne_nil (by simpa) (by simp)]
      simp [written]
    rw [split, Lexeme.scan_append_ignored _ _ (by simp) (by simp; rfl), value_ofLexemes_append,
      value_ofLexemes_append]
    exact congrArg (andThen · _) (andThen_nil _)

theorem value_ofLexemes_written {tokens : List Token} (plain : ∀ token ∈ tokens, token.isPlain)
    (fits : SignsFit tokens) (moderate : ∀ x, .number x ∈ tokens → Binary64.IsModerate x) :
    (ofLexemes (Lexeme.scan (written tokens).toList)).value = .ok tokens := by
  induction tokens using List.reverseRecOn with
  | nil => rfl
  | append_singleton tokens token induction =>
      obtain ⟨front_fits, token_fits⟩ := signsFit_concat.mp fits
      have front := induction (fun other member => plain other (List.mem_append_left _ member))
        front_fits fun x member => moderate x (List.mem_append_left _ member)
      have last := value_ofLexemes_text (plain token (by simp))
        (fun x same => moderate x (by simp [same])) token_fits
      rw [value_ofLexemes_written_concat, front, ← endsOperand_getLast? front, last]
      rfl

/--
Tokens that have been read from a text have no minus sign in front of a number but at the beginning,
behind an operator and behind an opening parenthesis, and every operator is marked with its own
arity.  So if their numbers are moderate, which are written without an exponent, the tokens are read
again from what is written of them, the signs of zeros included.
-/
theorem ofSource_written {source : String} {tokens : List Token}
    (read : (ofSource source).value = .ok tokens) :
    SignsFit tokens ∧ (∀ op arity, .operator op arity ∈ tokens → arity = op.arity) ∧
      ((∀ x, .number x ∈ tokens → Binary64.IsModerate x) →
        (ofSource (written tokens)).value = .ok tokens) := by
  rw [value_ofSource_eq_ok_iff] at read
  have plain := isPlain_of_ofLexemes read
  have fits := signsFit_of_ofLexemes (Lexeme.signsFit_scan source.toList) read
  refine ⟨fits, fun op arity member => ?_, fun moderate => ?_⟩
  · simpa [isPlain] using plain _ member
  · exact value_ofSource_eq_ok_iff.mpr (value_ofLexemes_written plain fits moderate)

/-- The least moderate number, a zero and two subtractions all show a minus sign. -/
theorem ofSource_written_minus_signs :
    let tokens : List Token := [.number (-0.0001), .opening, .ofOperator .subtract, .number (-0.0),
      .ofOperator .percent, .ofOperator .subtract]
    (ofSource "-.0001(--0%-").value = .ok tokens ∧
      (∀ x, .number x ∈ tokens → Binary64.IsModerate x) ∧ SignsFit tokens ∧
      (ofSource "-0.0001 ( - -0.0 % -").value = .ok tokens := by
  intro tokens
  have read : (ofSource "-.0001(--0%-").value = .ok tokens := rfl
  have least : Binary64.IsModerate (-0.0001) := by
    have placed : Binary64.Placed 4547007122018943789 1008 7378697629483821 :=
      ⟨rfl, Or.inr (by norm_num), by norm_num⟩
    have number : (-0.0001 : Float) = Binary64.ofMagnitude true 4547007122018943789 := by
      decide +kernel
    rw [number]
    refine ⟨_, Binary64.toRat?_ofMagnitude true (by decide), Or.inr ?_⟩
    rw [Binary64.abs_signed, placed.size_eq]
    norm_num
  have zero : Binary64.IsModerate (-0.0) := by
    have number : (-0.0 : Float) = Binary64.ofMagnitude true 0 := rfl
    rw [number]
    exact ⟨_, Binary64.toRat?_ofMagnitude true (by decide), Or.inl (Binary64.signed_zero true)⟩
  have moderate : ∀ x, .number x ∈ tokens → Binary64.IsModerate x := by
    intro x member
    simp only [tokens, ofOperator, List.mem_cons, List.not_mem_nil, or_false, reduceCtorEq,
      false_or, Token.number.injEq] at member
    rcases member with rfl | rfl
    · exact least
    · exact zero
  obtain ⟨fits, -, again⟩ := ofSource_written read
  have shown : written tokens = "-0.0001 ( - -0.0 % -" := by decide +kernel
  exact ⟨read, moderate, fits, shown ▸ again moderate⟩

end Token
end DeskCalculator
