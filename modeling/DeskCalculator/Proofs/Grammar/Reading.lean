import DeskCalculator.Proofs.Grammar

/-!
# Reading a spelled phrase

A text that spells a phrase gives the tokens of the phrase, wherever an operand is expected.  What
is carried from a phrase to what stands behind it is whether an operand is complete.  After a
percent sign it is not, so a subtraction there needs a blank before a numeral.
-/

namespace DeskCalculator

/-! ## Lexemes -/

namespace Lexeme

theorem isNumeral_symbol (op : Operator) : isNumeral op.symbol = false := by
  cases op <;> decide

/-- What has been read counts for anything but a digit or a point only by the lexeme that is
pending and by whether an operand stands there. -/
theorem scanFrom_eq_pending (state : State) {rest : List Char}
    (separate : beginsNumeral rest = false) :
    scanFrom state rest = state.pending ++ scanFrom (.settled state.hasOperand) rest := by
  cases rest with
  | nil => cases state <;> rfl
  | cons c rest =>
      have no_numeral : isNumeral c = false := separate
      by_cases minus : c = '-'
      · subst minus
        cases state <;>
          simp [scanFrom, State.step, no_numeral, State.pending, State.hasOperand, State.settled]
      · cases symbol : ofSymbol? c <;> cases state <;>
          simp [scanFrom, State.step, no_numeral, minus, symbol, State.pending,
            State.hasOperand, State.settled]

theorem scanFrom_reading (negative : Bool) (reversed : List Char) {run : List Char}
    (numerals : ∀ c ∈ run, isNumeral c) (rest : List Char) :
    scanFrom (.reading negative reversed) (run ++ rest) =
      scanFrom (.reading negative (run.reverse ++ reversed)) rest := by
  induction run generalizing reversed with
  | nil => rfl
  | cons c run induction =>
      have head_numeral : isNumeral c := numerals c List.mem_cons_self
      have tail_numerals : ∀ d ∈ run, isNumeral d :=
        fun d member => numerals d (List.mem_cons_of_mem c member)
      simp only [List.cons_append, scanFrom, State.step, head_numeral, if_true, State.extend,
        List.nil_append]
      rw [induction (c :: reversed) tail_numerals]
      simp

theorem scanFrom_literal (negative : Bool) {run rest : List Char} (nonempty : run ≠ [])
    (numerals : ∀ c ∈ run, isNumeral c) (separate : beginsNumeral rest = false) :
    scanFrom .expecting (Layout.sign negative ++ run ++ rest) =
      .literal negative run :: scanFrom .complete rest := by
  obtain ⟨c, tail, rfl⟩ := List.exists_cons_of_ne_nil nonempty
  have head_numeral : isNumeral c := numerals c List.mem_cons_self
  have tail_numerals : ∀ d ∈ tail, isNumeral d :=
    fun d member => numerals d (List.mem_cons_of_mem c member)
  have entered : scanFrom .expecting (Layout.sign negative ++ (c :: tail) ++ rest) =
      scanFrom (.reading negative [c]) (tail ++ rest) := by
    cases negative with
    | false => simp [Layout.sign, scanFrom, State.step, head_numeral, State.extend]
    | true =>
        have minus_no_numeral : isNumeral '-' = false := rfl
        simp [Layout.sign, scanFrom, State.step, head_numeral, minus_no_numeral, State.extend,
          State.hasOperand, State.pending]
  rw [entered, scanFrom_reading negative [c] tail_numerals rest,
    scanFrom_eq_pending _ separate]
  simp [State.pending, State.hasOperand, State.settled]

theorem scanFrom_operator (complete : Bool) {op : Operator} (no_minus : op ≠ .subtract)
    (rest : List Char) :
    scanFrom (.settled complete) (op.symbol :: rest) =
      .operator op :: scanFrom .expecting rest := by
  have no_numeral := isNumeral_symbol op
  cases op <;> cases complete <;>
    simp_all [scanFrom, State.step, Operator.symbol, ofSymbol?, Operator.ofSymbol?, Operator.all,
      State.settled, State.pending]

theorem scanFrom_subtract_complete (rest : List Char) :
    scanFrom .complete ('-' :: rest) = .operator .subtract :: scanFrom .expecting rest := by
  have no_numeral : isNumeral '-' = false := rfl
  simp [scanFrom, State.step, no_numeral, State.hasOperand, State.pending]

/-- Where an operand is expected, a minus sign is a subtraction unless a numeral follows at once. -/
theorem scanFrom_subtract_expecting {rest : List Char} (separate : beginsNumeral rest = false) :
    scanFrom .expecting ('-' :: rest) = .operator .subtract :: scanFrom .expecting rest := by
  have no_numeral : isNumeral '-' = false := rfl
  have signed : scanFrom .expecting ('-' :: rest) = scanFrom .signed rest := by
    simp [scanFrom, State.step, no_numeral, State.hasOperand, State.pending]
  rw [signed, scanFrom_eq_pending .signed separate]
  simp [State.pending, State.hasOperand, State.settled]

theorem scanFrom_opening (rest : List Char) :
    scanFrom .expecting ('(' :: rest) = .opening :: scanFrom .expecting rest := by
  have no_numeral : isNumeral '(' = false := rfl
  simp [scanFrom, State.step, no_numeral, ofSymbol?, State.settled, State.pending]

theorem scanFrom_closing (complete : Bool) (rest : List Char) :
    scanFrom (.settled complete) (')' :: rest) = .closing :: scanFrom .complete rest := by
  have no_numeral : isNumeral ')' = false := rfl
  cases complete <;>
    simp [scanFrom, State.step, no_numeral, ofSymbol?, State.settled, State.pending]

/-! ## Ignored characters and blanks -/

/-- The characters other than digits that mean something. -/
def symbols : List Char := ['.', '+', '-', '*', '/', '^', '%', '√', '(', ')']

/-- Whether a character means nothing: it is no digit, no point, no operator and no parenthesis. -/
def isIgnored (c : Char) : Bool := !(c.isDigit || c ∈ symbols)

variable {c : Char}

theorem isNumeral_of_isIgnored (ignored : isIgnored c) : isNumeral c = false := by
  simp_all [isIgnored, symbols, isNumeral]

theorem ofSymbol?_of_isIgnored (ignored : isIgnored c) : ofSymbol? c = none := by
  have no_symbol (op : Operator) : op.symbol ≠ c := by
    rintro rfl
    cases op <;> simp [isIgnored, symbols, Operator.symbol] at ignored
  simp_all [isIgnored, symbols, ofSymbol?, Operator.ofSymbol?]

theorem scanFrom_ignored (complete : Bool) (ignored : isIgnored c) (rest : List Char) :
    scanFrom (.settled complete) (c :: rest) =
      .ignored c :: scanFrom (.settled complete) rest := by
  have no_minus : c ≠ '-' := by simp_all [isIgnored, symbols]
  cases complete <;>
    simp [scanFrom, State.step, isNumeral_of_isIgnored ignored, no_minus,
      ofSymbol?_of_isIgnored ignored, State.settled, State.pending, State.hasOperand]

end Lexeme

namespace Text

theorem isBlank_iff {c : Char} : isBlank c ↔
    ∃ range ∈ blankRanges, range.1 ≤ c.toNat ∧ c.toNat ≤ range.2 := by
  simp [isBlank]

theorem ne_of_isBlank {c shown : Char} (blank : isBlank c) (shows : isBlank shown = false) :
    c ≠ shown := by
  rintro rfl
  simp [blank] at shows

theorem isNumeral_of_isBlank {c : Char} (blank : isBlank c) : Lexeme.isNumeral c = false := by
  by_contra numeral
  simp only [Lexeme.isNumeral, Bool.or_eq_true, beq_iff_eq, Bool.not_eq_false] at numeral
  rcases numeral with digit | point
  · simp only [Char.isDigit, Bool.and_eq_true, decide_eq_true_eq] at digit
    have lower : 48 ≤ c.toNat := digit.1
    have upper : c.toNat ≤ 57 := digit.2
    obtain ⟨range, member, first, last⟩ := isBlank_iff.mp blank
    simp only [blankRanges, List.mem_cons, List.not_mem_nil, or_false] at member
    rcases member with rfl | rfl | rfl | rfl | rfl | rfl | rfl | rfl | rfl | rfl <;>
      simp only at first last <;> omega
  · exact ne_of_isBlank blank rfl point

theorem isIgnored_of_isBlank {c : Char} (blank : isBlank c) : Lexeme.isIgnored c := by
  have no_digit : c.isDigit = false := by
    have no_numeral := isNumeral_of_isBlank blank
    simp_all [Lexeme.isNumeral]
  have shown : Lexeme.symbols.all (!isBlank ·) := by decide
  have no_symbol : c ∉ Lexeme.symbols := by
    intro member
    simpa [blank] using List.all_eq_true.mp shown c member
  simp only [Lexeme.isIgnored, no_digit, no_symbol]
  rfl

end Text

/-! ## Tokens -/

namespace Token

/-- The tokens of a text, read on from a state. -/
def readFrom (state : Lexeme.State) (text : List Char) : Traced (Except Cause (List Token)) :=
  ofLexemes (Lexeme.scanFrom state text)

/-- Tokens in front of those that a reading gives; a failure stays one. -/
def before (front : List Token) (reading : Traced (Except Cause (List Token))) :
    Traced (Except Cause (List Token)) :=
  Except.map (front ++ ·) <$> reading

theorem before_before (front middle : List Token) (reading : Traced (Except Cause (List Token))) :
    before front (before middle reading) = before (front ++ middle) reading := by
  obtain ⟨value, notices⟩ := reading
  cases value <;> simp [before, Functor.map, Traced.andThen, Traced.quiet, Except.map]

theorem ofLexemes_literal (negative : Bool) (numeral : Numeral) (rest : List Lexeme) :
    ofLexemes (.literal negative numeral.text :: rest) =
      before [.number (numeral.value negative)] (ofLexemes rest) := by
  simp only [ofLexemes, numeral.ofNumeral?_text]
  rfl

theorem ofLexemes_operator (op : Operator) (rest : List Lexeme) :
    ofLexemes (.operator op :: rest) = before [ofOperator op] (ofLexemes rest) := rfl

theorem ofLexemes_opening (rest : List Lexeme) :
    ofLexemes (.opening :: rest) = before [.opening] (ofLexemes rest) := rfl

theorem ofLexemes_closing (rest : List Lexeme) :
    ofLexemes (.closing :: rest) = before [.closing] (ofLexemes rest) := rfl

theorem ofLexemes_blank {c : Char} (blank : Text.isBlank c) (rest : List Lexeme) :
    ofLexemes (.ignored c :: rest) = ofLexemes rest := by
  simp [ofLexemes, blank]

theorem readFrom_operator (complete : Bool) {op : Operator} (no_minus : op ≠ .subtract)
    (rest : List Char) :
    readFrom (.settled complete) (op.symbol :: rest) =
      before [ofOperator op] (readFrom .expecting rest) := by
  rw [readFrom, Lexeme.scanFrom_operator complete no_minus, ofLexemes_operator, readFrom]

/-- A subtraction can stand behind any phrase that leaves a complete operand, and behind any other
if no numeral follows at once. -/
theorem readFrom_subtract (complete : Bool) {rest : List Char}
    (separate : complete = false → beginsNumeral rest = false) :
    readFrom (.settled complete) ('-' :: rest) =
      before [ofOperator .subtract] (readFrom .expecting rest) := by
  cases complete with
  | true =>
      rw [readFrom, Lexeme.State.settled, if_pos rfl, Lexeme.scanFrom_subtract_complete,
        ofLexemes_operator, readFrom]
  | false =>
      rw [readFrom, Lexeme.State.settled, if_neg (by simp),
        Lexeme.scanFrom_subtract_expecting (separate rfl), ofLexemes_operator, readFrom]

theorem readFrom_opening (rest : List Char) :
    readFrom .expecting ('(' :: rest) = before [.opening] (readFrom .expecting rest) := by
  rw [readFrom, Lexeme.scanFrom_opening, ofLexemes_opening, readFrom]

theorem readFrom_closing (complete : Bool) (rest : List Char) :
    readFrom (.settled complete) (')' :: rest) =
      before [.closing] (readFrom .complete rest) := by
  rw [readFrom, Lexeme.scanFrom_closing, ofLexemes_closing, readFrom]

end Token

/--
Where an operand is expected, a text reads as the given tokens, whatever stands behind it and does
not begin with a digit or a point; `complete` tells whether it leaves a complete operand.
-/
def Reads (text : List Char) (tokens : List Token) (complete : Bool) : Prop :=
  ∀ rest, beginsNumeral rest = false →
    Token.readFrom .expecting (text ++ rest) =
      Token.before tokens (Token.readFrom (.settled complete) rest)

namespace Reads

open Token (readFrom before before_before)

theorem literal (negative : Bool) (numeral : Numeral) :
    Reads (Layout.sign negative ++ numeral.text) [.number (numeral.value negative)] true := by
  intro rest separate
  rw [readFrom, Lexeme.scanFrom_literal negative numeral.text_ne_nil numeral.text_isNumeral
    separate, Token.ofLexemes_literal]
  rfl

theorem group {text : List Char} {tokens : List Token} {complete : Bool}
    (inner : Reads text tokens complete) :
    Reads ('(' :: text ++ [')']) (.opening :: tokens ++ [.closing]) true := by
  intro rest _
  have whole : '(' :: text ++ [')'] ++ rest = '(' :: (text ++ ')' :: rest) := by simp
  rw [whole, Token.readFrom_opening, inner (')' :: rest) rfl, Token.readFrom_closing,
    before_before, before_before]
  rfl

theorem percent {text : List Char} {tokens : List Token} {complete : Bool}
    (operand : Reads text tokens complete) :
    Reads (text ++ ['%']) (tokens ++ [.ofOperator .percent]) false := by
  intro rest _
  have sign : readFrom (.settled complete) ('%' :: rest) =
      before [.ofOperator .percent] (readFrom .expecting rest) :=
    Token.readFrom_operator complete (nofun : Operator.percent ≠ .subtract) rest
  have whole : text ++ ['%'] ++ rest = text ++ '%' :: rest := by simp
  rw [whole, operand ('%' :: rest) rfl, sign, before_before]
  rfl

theorem root {text : List Char} {tokens : List Token} {complete : Bool}
    (operand : Reads text tokens complete) :
    Reads ('√' :: text) (.ofOperator .root :: tokens) complete := by
  intro rest separate
  have signed := Token.readFrom_operator false (nofun : Operator.root ≠ .subtract) (text ++ rest)
  rw [operand rest separate, before_before] at signed
  exact signed

theorem binary {before after : List Char} {left right : List Token} {complete ends : Bool}
    {op : Operator} (first : Reads before left complete) (second : Reads after right ends)
    (separate : op = .subtract → complete = false → ∀ rest, beginsNumeral rest = false →
      beginsNumeral (after ++ rest) = false) :
    Reads (before ++ op.symbol :: after) (left ++ .ofOperator op :: right) ends := by
  intro rest separated
  have middle : readFrom (.settled complete) (op.symbol :: (after ++ rest)) =
      Token.before [.ofOperator op] (readFrom .expecting (after ++ rest)) := by
    by_cases minus : op = .subtract
    · subst minus
      exact Token.readFrom_subtract complete fun incomplete =>
        separate rfl incomplete rest separated
    · exact Token.readFrom_operator complete minus _
  have whole : before ++ op.symbol :: after ++ rest =
      before ++ op.symbol :: (after ++ rest) := by simp
  rw [whole, first (op.symbol :: (after ++ rest)) (Lexeme.isNumeral_symbol op), middle,
    second rest separated, before_before, before_before]
  simp

theorem blankBefore {text : List Char} {tokens : List Token} {complete : Bool} {c : Char}
    (blank : Text.isBlank c) (phrase : Reads text tokens complete) :
    Reads (c :: text) tokens complete := by
  intro rest separate
  have skipped : readFrom .expecting (c :: (text ++ rest)) =
      readFrom .expecting (text ++ rest) := by
    have ignored := Text.isIgnored_of_isBlank blank
    have scanned := Lexeme.scanFrom_ignored false ignored (text ++ rest)
    rw [Lexeme.State.settled, if_neg (by simp)] at scanned
    rw [readFrom, scanned, Token.ofLexemes_blank blank, readFrom]
  rw [List.cons_append, skipped]
  exact phrase rest separate

theorem blankBehind {text : List Char} {tokens : List Token} {complete : Bool} {c : Char}
    (blank : Text.isBlank c) (phrase : Reads text tokens complete) :
    Reads (text ++ [c]) tokens complete := by
  intro rest _
  have skipped : readFrom (.settled complete) (c :: rest) =
      readFrom (.settled complete) rest := by
    rw [readFrom, Lexeme.scanFrom_ignored complete (Text.isIgnored_of_isBlank blank),
      Token.ofLexemes_blank blank, readFrom]
  have whole : text ++ [c] ++ rest = text ++ c :: rest := by simp
  rw [whole, phrase (c :: rest) (Text.isNumeral_of_isBlank blank), skipped]

end Reads

/-! ## Phrases -/

namespace Expression

theorem Spells.ne_nil {level : Category} {phrase : Expression level} {text : List Char}
    (spells : phrase.Spells text) : text ≠ [] := by
  induction spells with
  | literal _ numeral => simp [numeral.text_ne_nil]
  | lift _ induction => exact induction
  | _ => simp

/-- A text that spells a phrase reads as the tokens of the phrase. -/
theorem Spells.reads {level : Category} {phrase : Expression level} {text : List Char}
    (spells : phrase.Spells text) : Reads text phrase.tokens (!phrase.endsInPercent) := by
  induction spells with
  | literal negative numeral => exact .literal negative numeral
  | group _ inner => exact .group inner
  | percent _ operand => exact .percent operand
  | root _ operand => exact .root operand
  | @binary _ _ op _ _ left _ _ after _ second separate first_reads second_reads =>
      apply Reads.binary first_reads second_reads
      intro minus incomplete rest _
      obtain ⟨c, tail, rfl⟩ := List.exists_cons_of_ne_nil second.ne_nil
      exact separate minus (by simpa using incomplete)
  | lift _ inner => exact inner
  | blankBefore blank _ phrase => exact .blankBefore blank phrase
  | blankBehind blank _ phrase => exact .blankBehind blank phrase

end Expression

theorem Reads.ofSource {source : String} {tokens : List Token} {complete : Bool}
    (phrase : Reads source.toList tokens complete) :
    Token.ofSource source = ⟨.ok tokens, [.tokenized source tokens]⟩ := by
  have read := phrase [] rfl
  rw [List.append_nil] at read
  have empty : Token.readFrom (.settled complete) [] = ⟨.ok [], []⟩ := by
    cases complete <;> rfl
  rw [empty] at read
  have lexemes : Token.ofLexemes (Lexeme.scan source.toList) = ⟨.ok tokens, []⟩ := by
    simpa [Token.readFrom, Lexeme.scan, Token.before, Functor.map, Traced.andThen, Traced.quiet,
      Except.map] using read
  rw [Token.ofSource, lexemes]
  rfl

end DeskCalculator
