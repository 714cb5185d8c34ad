import DeskCalculator.Proofs.Evaluation.Failures
import DeskCalculator.Proofs.Token.Composition
import Mathlib.Data.List.Find

/-!
# The literals of a text

The literals of a text are its maximal runs of digits and points, each with the minus sign right
before it if this is the sign of a number.  The scanner reads a literal exactly behind a digit or
point, and holds a sign exactly behind a minus sign where an operand is expected.
-/

namespace DeskCalculator

open Lexeme (isNumeral)

/-! ## Runs -/

/-- A run of digits and points in a text. -/
structure Run where
  /-- The text before the run. -/
  before : List Char
  /-- The digits and points. -/
  text : List Char
  deriving DecidableEq, Repr

namespace Run

/-- The runs of a text that stands behind another.  A run begins at every digit or point behind
something else, and takes all digits and points that follow. -/
def allBehind (before : List Char) : List Char → List Run
  | [] => []
  | c :: rest =>
      if isNumeral c ∧ before.getLast?.any isNumeral = false then
        ⟨before, c :: rest.takeWhile isNumeral⟩ :: allBehind (before ++ [c]) rest
      else
        allBehind (before ++ [c]) rest

/-- The maximal runs of digits and points in a text, from left to right. -/
def all (text : List Char) : List Run := allBehind [] text

/-- Whether a run is no number: it has no digit, or more than one point. -/
def isBad (run : Run) : Bool := !run.text.any Char.isDigit || decide (1 < run.text.count '.')

/-- A run between a text before it and one behind it cannot be made longer. -/
structure IsMaximal (run : Run) (text : List Char) : Prop where
  /-- The run stands in the text. -/
  stands : ∃ after, text = run.before ++ run.text ++ after ∧ beginsNumeral after = false
  /-- The run is not empty. -/
  nonempty : run.text ≠ []
  /-- The run has nothing but digits and points. -/
  numerals : ∀ c ∈ run.text, isNumeral c
  /-- No digit or point stands before the run. -/
  separate : run.before.getLast?.any isNumeral = false

theorem takeWhile_isNumeral_append {run after : List Char} (numerals : ∀ c ∈ run, isNumeral c)
    (separate : beginsNumeral after = false) :
    (run ++ after).takeWhile isNumeral = run := by
  rw [List.takeWhile_append_of_pos numerals]
  cases after with
  | nil => simp
  | cons c rest =>
      have no_numeral : isNumeral c = false := separate
      simp [no_numeral]

theorem beginsNumeral_dropWhile (text : List Char) :
    beginsNumeral (text.dropWhile isNumeral) = false := by
  have stopped := List.head?_dropWhile_not isNumeral text
  cases shown : text.dropWhile isNumeral with
  | nil => rfl
  | cons c rest =>
      rw [shown] at stopped
      simpa [beginsNumeral] using stopped

theorem mem_allBehind_iff {run : Run} {before text : List Char} :
    run ∈ allBehind before text ↔
      ∃ front rest, text = front ++ rest ∧ beginsNumeral rest ∧
        (before ++ front).getLast?.any isNumeral = false ∧
        run = ⟨before ++ front, rest.takeWhile isNumeral⟩ := by
  induction text generalizing before with
  | nil =>
      simp only [allBehind, List.not_mem_nil, false_iff]
      rintro ⟨front, rest, nothing, begins, -⟩
      obtain ⟨rfl, rfl⟩ := List.append_eq_nil_iff.mp nothing.symm
      simp [beginsNumeral] at begins
  | cons c others induction =>
      have split : run ∈ allBehind before (c :: others) ↔
          (isNumeral c ∧ before.getLast?.any isNumeral = false ∧
            run = ⟨before, (c :: others).takeWhile isNumeral⟩) ∨
          run ∈ allBehind (before ++ [c]) others := by
        rw [allBehind]
        split
        next starts => simp [starts]
        next inside => simp only [← and_assoc, inside, false_and, false_or]
      rw [split, induction]
      constructor
      · rintro (⟨numeral, separate, rfl⟩ | ⟨front, rest, rfl, begins, separate, rfl⟩)
        · exact ⟨[], c :: others, rfl, numeral, by simpa using separate, by simp⟩
        · exact ⟨c :: front, rest, rfl, begins, by simpa using separate, by simp⟩
      · rintro ⟨front, rest, whole, begins, separate, rfl⟩
        cases front with
        | nil =>
            obtain rfl : c :: others = rest := whole
            exact Or.inl ⟨begins, by simpa using separate, by simp⟩
        | cons first front =>
            obtain ⟨rfl, rfl⟩ := List.cons.inj whole
            exact Or.inr ⟨front, rest, rfl, begins, by simpa using separate, by simp⟩

/-- The runs of a text are those that cannot be made longer. -/
theorem mem_all_iff {run : Run} {text : List Char} : run ∈ all text ↔ run.IsMaximal text := by
  rw [all, mem_allBehind_iff]
  constructor
  · rintro ⟨front, rest, rfl, begins, separate, rfl⟩
    refine ⟨⟨rest.dropWhile isNumeral, ?_, beginsNumeral_dropWhile rest⟩, ?_, ?_, separate⟩
    · simp
    · cases rest with
      | nil => simp [beginsNumeral] at begins
      | cons c others =>
          have numeral : isNumeral c := begins
          simp [numeral]
    · exact fun c => List.mem_takeWhile_imp
  · rintro ⟨⟨after, rfl, unmade⟩, nonempty, numerals, separate⟩
    refine ⟨run.before, run.text ++ after, by simp, ?_, separate, ?_⟩
    · obtain ⟨c, others, shown⟩ := List.exists_cons_of_ne_nil nonempty
      rw [shown]
      exact numerals c (by simp [shown])
    · rw [takeWhile_isNumeral_append numerals unmade]
      rfl

example : (all "1.5-.2)7".toList).map Run.text = ["1.5".toList, ".2".toList, "7".toList] := by
  decide

theorem pairwise_allBehind (before text : List Char) :
    (allBehind before text).Pairwise fun run later => run.before.length < later.before.length := by
  induction text generalizing before with
  | nil => exact .nil
  | cons c rest induction =>
      rw [allBehind]
      split
      next starts =>
        refine .cons ?_ (induction (before ++ [c]))
        intro later member
        obtain ⟨front, _, _, _, _, rfl⟩ := mem_allBehind_iff.mp member
        simp
      next => exact induction (before ++ [c])

/-! ## Numerals -/

theorem exists_digits_append {text : List Char} (numerals : ∀ c ∈ text, isNumeral c) :
    ∃ whole, (∀ c ∈ whole, c.isDigit) ∧ (text = whole ∨ ∃ rest, text = whole ++ '.' :: rest) := by
  induction text with
  | nil => exact ⟨[], by simp, Or.inl rfl⟩
  | cons c others induction =>
      obtain ⟨whole, digits, split⟩ :=
        induction fun d member => numerals d (List.mem_cons_of_mem c member)
      have numeral := numerals c List.mem_cons_self
      simp only [isNumeral, Bool.or_eq_true, beq_iff_eq] at numeral
      rcases numeral with digit | rfl
      · refine ⟨c :: whole, by simpa [digit] using digits, ?_⟩
        rcases split with rfl | ⟨rest, rfl⟩
        · exact Or.inl rfl
        · exact Or.inr ⟨rest, rfl⟩
      · exact ⟨[], by simp, Or.inr ⟨others, rfl⟩⟩

theorem count_point_of_digits {digits : List Char} (all_digits : ∀ c ∈ digits, c.isDigit) :
    digits.count '.' = 0 := by
  apply List.count_eq_zero.mpr
  intro member
  simpa using all_digits '.' member

variable {run : Run}

theorem exists_numeral (numerals : ∀ c ∈ run.text, isNumeral c) (good : run.isBad = false) :
    ∃ numeral : Numeral, numeral.text = run.text := by
  simp only [isBad, Bool.or_eq_false_iff, Bool.not_eq_false', decide_eq_false_iff_not] at good
  obtain ⟨some_digit, one_point⟩ := good
  obtain ⟨d, stands, digit⟩ := List.any_eq_true.mp some_digit
  obtain ⟨whole, digits, shown | ⟨places, shown⟩⟩ := exists_digits_append numerals
  · rw [shown] at stands
    exact ⟨⟨whole, none, by simpa using digits, by simpa using List.ne_nil_of_mem stands⟩,
      by simp [Numeral.text, shown]⟩
  · have no_point : '.' ∉ places := by
      rw [shown, List.count_append, List.count_cons_self] at one_point
      exact List.count_eq_zero.mp (by omega)
    have places_digits : ∀ c ∈ places, c.isDigit := by
      intro c member
      have numeral := numerals c (by simp [shown, member])
      have other : c ≠ '.' := ne_of_mem_of_not_mem member no_point
      simpa [isNumeral, other] using numeral
    have nonempty : whole ++ places ≠ [] := by
      have other : d ≠ '.' := by
        rintro rfl
        simp at digit
      simp only [shown, List.mem_append, List.mem_cons, other, false_or] at stands
      exact List.ne_nil_of_mem (List.mem_append.mpr stands)
    refine ⟨⟨whole, some places, ?_, nonempty⟩, by simp [Numeral.text, shown]⟩
    intro c member
    rcases List.mem_append.mp member with inWhole | inPlaces
    · exact digits c inWhole
    · exact places_digits c inPlaces

theorem isBad_of_ofNumeral? {d : Decimal} (read : Decimal.ofNumeral? run.text = some d) :
    run.isBad = false := by
  simp only [Decimal.ofNumeral?, Option.ite_none_right_eq_some] at read
  obtain ⟨⟨one_point, places_digits, some_digit⟩, -⟩ := read
  have split : run.text.takeWhile Char.isDigit ++ run.text.dropWhile Char.isDigit = run.text :=
    List.takeWhile_append_dropWhile
  have whole_digits : ∀ c ∈ run.text.takeWhile Char.isDigit, c.isDigit :=
    fun c => List.mem_takeWhile_imp
  generalize run.text.takeWhile Char.isDigit = whole at *
  generalize run.text.dropWhile Char.isDigit = rest at *
  have digits : ∀ c ∈ whole ++ rest.drop 1, c.isDigit := by
    intro c member
    rcases List.mem_append.mp member with inWhole | inPlaces
    · exact whole_digits c inWhole
    · exact List.all_eq_true.mp places_digits c inPlaces
  have points := count_point_of_digits digits
  rw [← List.length_append] at some_digit
  obtain ⟨c, member⟩ := List.exists_mem_of_length_pos some_digit
  have digit := digits c member
  simp only [isBad, Bool.or_eq_false_iff, Bool.not_eq_false', decide_eq_false_iff_not]
  refine ⟨List.any_eq_true.mpr ⟨c, ?_, digit⟩, ?_⟩
  · rw [← split]
    exact List.mem_append.mpr ((List.mem_append.mp member).imp_right List.mem_of_mem_drop)
  · have first : (rest.take 1).count '.' ≤ 1 :=
      List.count_le_length.trans (List.length_take_le 1 rest)
    have parts : rest.count '.' = (rest.take 1).count '.' + (rest.drop 1).count '.' := by
      rw [← List.count_append, List.take_append_drop]
    rw [List.count_append] at points
    rw [← split, List.count_append]
    omega

/-- A run of digits and points is read as a number exactly if it is not bad. -/
theorem isNone_ofNumeral? (numerals : ∀ c ∈ run.text, isNumeral c) :
    (Decimal.ofNumeral? run.text).isNone = run.isBad := by
  cases read : Decimal.ofNumeral? run.text with
  | some d => rw [isBad_of_ofNumeral? read]; rfl
  | none =>
      cases bad : run.isBad with
      | true => rfl
      | false =>
          obtain ⟨numeral, shown⟩ := exists_numeral numerals bad
          rw [← shown, numeral.ofNumeral?_text] at read
          simp at read

end Run

/-! ## The state of the scanner -/

namespace Lexeme

theorem stateAfter_append (state : State) (before after : List Char) :
    stateAfter state (before ++ after) = stateAfter (stateAfter state before) after := by
  induction before generalizing state with
  | nil => rfl
  | cons c rest induction => exact induction (state.step c).2

theorem stateAfter_concat (state : State) (before : List Char) (c : Char) :
    stateAfter state (before ++ [c]) = ((stateAfter state before).step c).2 :=
  stateAfter_append state before [c]

/-- The literal that is being read. -/
def State.literal? : State → Option (Bool × List Char)
  | reading negative reversed => some (negative, reversed.reverse)
  | _ => none

/-- The literal that a lexeme is. -/
def literal? : Lexeme → Option (Bool × List Char)
  | literal negative run => some (negative, run)
  | _ => none

theorem literal?_ofSymbol? {c : Char} {lexeme : Lexeme} (symbol : ofSymbol? c = some lexeme) :
    lexeme.literal? = none := by
  rcases ofSymbol?_cases symbol with rfl | rfl | ⟨op, rfl⟩ <;> rfl

theorem filterMap_pending (state : State) :
    state.pending.filterMap literal? = state.literal?.toList := by
  cases state <;> rfl

theorem literal?_settled (complete : Bool) : (State.settled complete).literal? = none := by
  cases complete <;> rfl

theorem literals_step (state : State) {c : Char} (separate : isNumeral c = false) :
    (state.step c).1.filterMap literal? = state.literal?.toList ∧
      (state.step c).2.literal? = none := by
  rw [State.step, if_neg (by simp [separate])]
  by_cases minus : c = '-'
  · rw [if_pos minus]
    cases state <;> exact ⟨rfl, rfl⟩
  · rw [if_neg minus]
    cases symbol : ofSymbol? c with
    | some lexeme =>
        simp [filterMap_pending, literal?_ofSymbol? symbol, literal?_settled]
    | none =>
        have nothing : (ignored c).literal? = none := rfl
        simp [filterMap_pending, nothing, literal?_settled]

theorem isSome_literal?_stateAfter (before : List Char) :
    (stateAfter .expecting before).literal?.isSome = before.getLast?.any isNumeral := by
  cases before using List.reverseRecOn with
  | nil => rfl
  | append_singleton before c =>
      rw [stateAfter_concat, List.getLast?_concat, Option.any_some]
      cases numeral : isNumeral c with
      | true =>
          rw [State.step, if_pos numeral]
          cases stateAfter .expecting before <;> rfl
      | false =>
          rw [(literals_step _ numeral).2]
          rfl

/-- The literal of a run is what the scanner makes of it. -/
def literalOf (run : Run) : Bool × List Char :=
  (decide (stateAfter .expecting run.before = .signed), run.text)

/-- What is read behind a text are the end of the literal that is being read and the runs that
begin. -/
theorem literals_scanFrom (before text : List Char) :
    (scanFrom (stateAfter .expecting before) text).filterMap literal? =
      ((stateAfter .expecting before).literal?.map fun literal =>
          (literal.1, literal.2 ++ text.takeWhile isNumeral)).toList ++
        (Run.allBehind before text).map literalOf := by
  induction text generalizing before with
  | nil => simp [scanFrom, filterMap_pending, Run.allBehind]
  | cons c rest induction =>
      -- A digit or point extends the literal that is being read, or begins one where none is.
      have later := induction (before ++ [c])
      have reading := isSome_literal?_stateAfter before
      rw [stateAfter_concat] at later
      rw [scanFrom, List.filterMap_append, later, Run.allBehind]
      cases numeral : isNumeral c with
      | true =>
          rw [State.step, if_pos numeral]
          cases state : stateAfter .expecting before <;>
            simp_all [State.extend, State.literal?, literalOf]
      | false =>
          obtain ⟨ended, none_begun⟩ := literals_step (stateAfter .expecting before) numeral
          rw [ended, none_begun]
          simp [numeral]

theorem literals_scan (text : List Char) :
    (scan text).filterMap literal? = (Run.all text).map literalOf :=
  literals_scanFrom [] text

/-- A sign is held exactly behind a minus sign where an operand is expected. -/
theorem stateAfter_eq_signed_iff (before : List Char) :
    stateAfter .expecting before = .signed ↔
      before.getLast? = some '-' ∧
        (stateAfter .expecting before.dropLast).hasOperand = false := by
  cases before using List.reverseRecOn with
  | nil => simp [stateAfter]
  | append_singleton front c =>
      rw [stateAfter_concat, List.getLast?_concat, List.dropLast_concat]
      by_cases numeral : isNumeral c
      · have other : c ≠ '-' := by
          rintro rfl
          simp [isNumeral] at numeral
        rw [State.step, if_pos numeral]
        cases stateAfter .expecting front <;> simp [State.extend, other]
      by_cases minus : c = '-'
      · subst minus
        rw [State.step, if_neg numeral]
        cases stateAfter .expecting front <;> simp [State.hasOperand]
      · rw [State.step, if_neg numeral, if_neg minus]
        have unsigned (complete : Bool) : State.settled complete ≠ .signed := by
          cases complete <;> simp [State.settled]
        cases ofSymbol? c <;> simp [minus, unsigned]

end Lexeme

/-! ## Signs -/

namespace Token

/-- Whether an operand is expected behind a text that is read without failure: it has no token, or
its last one is an operator or an opening parenthesis. -/
def expectsOperand (text : List Char) : Bool :=
  match (ofSource (String.ofList text)).value with
  | .ok tokens => !tokens.getLast?.any endsOperand
  | .error _ => false

theorem expectsOperand_eq {text : List Char} {tokens : List Token}
    (read : (ofSource (String.ofList text)).value = .ok tokens) :
    expectsOperand text = !(Lexeme.stateAfter .expecting text).hasOperand := by
  have known : (Lexeme.stateAfter .expecting text).hasOperand =
      (Lexeme.scan text).foldl Lexeme.leavesOperand false := Lexeme.hasOperand_stateAfter rfl text
  rw [expectsOperand, read, known]
  rw [value_ofSource_eq_ok_iff, String.toList_ofList] at read
  exact congrArg (!·) (endsOperand_getLast? read)

end Token

namespace Run

/-- Whether the sign of a number stands right before a run. -/
def isNegative (run : Run) : Bool :=
  decide (run.before.getLast? = some '-') && Token.expectsOperand run.before.dropLast

/-- A run with its sign, as a failure reports it. -/
def literal (run : Run) : String := Token.literalText run.isNegative run.text

theorem isNegative_eq {run : Run} {tokens : List Token}
    (read : (Token.ofSource (String.ofList run.before.dropLast)).value = .ok tokens) :
    run.isNegative = decide (Lexeme.stateAfter .expecting run.before = .signed) := by
  rw [isNegative, Token.expectsOperand_eq read]
  simp [Lexeme.stateAfter_eq_signed_iff]

end Run

/-! ## Readings -/

namespace Token

/-- The value of a number. -/
def value? : Token → Option Float
  | number value => some value
  | _ => none

/-- A number is that of a literal: the literal writes a decimal, which the number is nearest to. -/
def IsValueOf (literal : Bool × List Char) (x : Float) : Prop :=
  ∃ d, Decimal.ofNumeral? literal.2 = some d ∧ x = d.toFloat literal.1

/-- Whether a literal is no number. -/
def isInvalid (literal : Bool × List Char) : Bool := (Decimal.ofNumeral? literal.2).isNone

theorem forall₂_of_ofLexeme {lexeme : Lexeme} {tokens : List Token}
    (read : ofLexeme lexeme = .ok tokens) :
    List.Forall₂ IsValueOf lexeme.literal?.toList (tokens.filterMap value?) := by
  cases lexeme with
  | literal negative run =>
      cases number : Decimal.ofNumeral? run with
      | none => simp [ofLexeme, number] at read
      | some d =>
          obtain rfl : [.number (d.toFloat negative)] = tokens := by
            simpa [ofLexeme, number] using read
          exact .cons ⟨d, number, rfl⟩ .nil
  | _ =>
      obtain rfl := Except.ok.inj read
      exact .nil

theorem literal_of_ofLexeme {lexeme : Lexeme} {cause : Cause}
    (failed : ofLexeme lexeme = .error cause) :
    ∃ literal, lexeme.literal? = some literal ∧ Decimal.ofNumeral? literal.2 = none ∧
      cause = .invalidNumber (literalText literal.1 literal.2) := by
  cases lexeme with
  | literal negative run =>
      cases number : Decimal.ofNumeral? run with
      | none => exact ⟨(negative, run), rfl, number, by simpa [ofLexeme, number] using failed.symm⟩
      | some d => simp [ofLexeme, number] at failed
  | _ => simp [ofLexeme] at failed

/-- The first literal that is no number decides the failure of a reading; the numbers of a reading
without failure are those of the literals. -/
theorem ofLexemes_cases (lexemes : List Lexeme) :
    match (lexemes.filterMap Lexeme.literal?).find? isInvalid with
    | some literal =>
        (ofLexemes lexemes).value = .error (.invalidNumber (literalText literal.1 literal.2))
    | none => ∃ tokens, (ofLexemes lexemes).value = .ok tokens ∧
        List.Forall₂ IsValueOf (lexemes.filterMap Lexeme.literal?) (tokens.filterMap value?) := by
  induction lexemes with
  | nil => exact ⟨[], rfl, .nil⟩
  | cons lexeme rest induction =>
      rw [value_ofLexemes_cons]
      cases read : ofLexeme lexeme with
      | error cause =>
          obtain ⟨literal, shown, bad, rfl⟩ := literal_of_ofLexeme read
          simp [shown, isInvalid, bad]
      | ok tokens =>
          have numbers := forall₂_of_ofLexeme read
          have good : lexeme.literal?.toList.find? isInvalid = none := by
            cases shown : lexeme.literal? with
            | none => rfl
            | some literal =>
                rw [shown] at numbers
                obtain ⟨x, _, ⟨d, number, -⟩, -⟩ := List.forall₂_cons_left_iff.mp numbers
                simp [isInvalid, number]
          have literals : (lexeme :: rest).filterMap Lexeme.literal? =
              lexeme.literal?.toList ++ rest.filterMap Lexeme.literal? := by
            cases shown : lexeme.literal? <;> simp [shown]
          rw [literals, List.find?_append, good, Option.none_or, andThen_ok]
          cases found : (rest.filterMap Lexeme.literal?).find?
              isInvalid with
          | some literal =>
              rw [found] at induction
              exact congrArg (Except.map (tokens ++ ·)) induction
          | none =>
              rw [found] at induction
              obtain ⟨others, later, other_numbers⟩ := induction
              refine ⟨tokens ++ others, by rw [later]; rfl, ?_⟩
              rw [List.filterMap_append]
              exact List.rel_append numbers other_numbers

/-- The first bad run of a text decides the failure of its reading; without a bad run, the numbers
of the text are those of its runs. -/
theorem ofSource_cases (text : List Char) :
    match (Run.all text).find? Run.isBad with
    | some run => (ofSource (String.ofList text)).value =
        .error ⟨.invalidNumber (literalText (Lexeme.literalOf run).1 run.text),
          some (String.ofList text)⟩
    | none => ∃ tokens, (ofSource (String.ofList text)).value = .ok tokens ∧
        List.Forall₂ (fun run x => IsValueOf (Lexeme.literalOf run) x) (Run.all text)
          (tokens.filterMap value?) := by
  have read := ofLexemes_cases (Lexeme.scan text)
  have bad : ∀ run ∈ Run.all text, (isInvalid ∘ Lexeme.literalOf) run = run.isBad :=
    fun run member => Run.isNone_ofNumeral? (Run.mem_all_iff.mp member).numerals
  rw [Lexeme.literals_scan, List.find?_map, List.find?_congr bad] at read
  rw [value_ofSource, String.toList_ofList]
  cases found : (Run.all text).find? Run.isBad with
  | some run =>
      rw [found] at read
      simp only [Option.map_some] at read
      rw [read]
      rfl
  | none =>
      rw [found] at read
      obtain ⟨tokens, success, numbers⟩ := read
      exact ⟨tokens, by rw [success]; rfl, List.forall₂_map_left_iff.mp numbers⟩

end Token

/-! ## The runs of a text -/

namespace Run

variable {run : Run} {text : List Char}

theorem mem_all_of_mem_front {front rest : List Char} (member : run ∈ all front) :
    run ∈ all (front ++ '-' :: rest) := by
  obtain ⟨⟨after, rfl, unmade⟩, nonempty, numerals, separate⟩ := mem_all_iff.mp member
  refine mem_all_iff.mpr ⟨⟨after ++ '-' :: rest, by simp, ?_⟩, nonempty, numerals, separate⟩
  cases after with
  | nil => rfl
  | cons c others => exact unmade

/-- A run is read with its sign if no run before it is bad. -/
theorem literalOf_eq (member : run ∈ all text)
    (good : ∀ other ∈ all text, other.before.length < run.before.length → other.isBad = false) :
    Lexeme.literalOf run = (run.isNegative, run.text) := by
  by_cases minus : run.before.getLast? = some '-'
  -- Whether the minus is a sign shows in the tokens of the text in front of it, and this text has
  -- tokens, as the runs in it are runs of the whole text and none of them is bad.
  · obtain ⟨⟨after, whole, -⟩, -⟩ := mem_all_iff.mp member
    have before := List.dropLast_append_getLast? '-' minus
    set front := run.before.dropLast
    have read := Token.ofSource_cases front
    have no_bad : (all front).find? isBad = none := by
      refine List.find?_eq_none.mpr fun other inFront => ?_
      obtain ⟨⟨behind, split, -⟩, -⟩ := mem_all_iff.mp inFront
      have shorter : other.before.length < run.before.length := by
        rw [← before, split]
        simp
      have stands : other ∈ all text := by
        rw [whole, ← before, List.append_assoc, List.append_assoc]
        exact mem_all_of_mem_front inFront
      simp [good other stands shorter]
    rw [no_bad] at read
    obtain ⟨tokens, success, -⟩ := read
    rw [isNegative_eq success]
    rfl
  · simp [Lexeme.literalOf, isNegative, Lexeme.stateAfter_eq_signed_iff, minus]

theorem good_of_find? (found : (all text).find? isBad = some run) :
    ∀ other ∈ all text, other.before.length < run.before.length → other.isBad = false := by
  intro other member shorter
  obtain ⟨-, front, back, split, good⟩ := List.find?_eq_some_iff_append.mp found
  have order := pairwise_allBehind [] text
  rw [← all, split, List.pairwise_append, List.pairwise_cons] at order
  rw [split, List.mem_append, List.mem_cons] at member
  rcases member with inFront | rfl | inBack
  · simpa using good other inFront
  · omega
  · have longer := order.2.1.1 other inBack
    omega

end Run

namespace Token

theorem forall₂_value_of_good {text : List Char} {values : List Float}
    (good : ∀ run ∈ Run.all text, run.isBad = false)
    (numbers : List.Forall₂ (fun run x => IsValueOf (Lexeme.literalOf run) x) (Run.all text)
      values) :
    List.Forall₂ (fun run x => Binary64.view x ≠ .nan ∧
      ∃ numeral : Numeral, numeral.text = run.text ∧ x = numeral.value run.isNegative)
      (Run.all text) values := by
  have listed : List.Forall₂ (fun run x => run ∈ Run.all text ∧
      IsValueOf (Lexeme.literalOf run) x) (Run.all text) values :=
    (List.forall₂_and_left _ _).mpr ⟨fun _ member => member, numbers⟩
  refine listed.imp ?_
  rintro run _ ⟨member, d, number, rfl⟩
  obtain ⟨numeral, shown⟩ :=
    Run.exists_numeral (Run.mem_all_iff.mp member).numerals (good run member)
  have sign := Run.literalOf_eq member fun other inText _ => good other inText
  rw [sign, ← shown, numeral.ofNumeral?_text] at number
  obtain rfl := Option.some.inj number
  rw [sign]
  exact ⟨Binary64.view_ofMagnitude_ne_nan _ (Binary64.nearest_le_infinityWord _ _),
    numeral, shown, rfl⟩

/-- A text fails to be read exactly if it has a bad run.  The failure keeps the text and reports the
first of these runs with its sign, also where an operand is missing.  Otherwise the numbers of the
text are the decimals that its runs write, with their signs. -/
theorem value_ofSource_runs [Arithmetic] (source : String) :
    match (Run.all source.toList).find? Run.isBad with
    | some run =>
        (ofSource source).value = .error ⟨.invalidNumber run.literal, some source⟩ ∧
          (Evaluation.evaluate source).value =
            .error ⟨.invalidNumber run.literal, some source⟩
    | none =>
        (∃ tokens, (ofSource source).value = .ok tokens ∧
          List.Forall₂ (fun run x => Binary64.view x ≠ .nan ∧
            ∃ numeral : Numeral, numeral.text = run.text ∧ x = numeral.value run.isNegative)
            (Run.all source.toList) (tokens.filterMap value?)) ∧
          ∀ literal expression, (Evaluation.evaluate source).value ≠
            .error ⟨.invalidNumber literal, expression⟩ := by
  have read := ofSource_cases source.toList
  rw [String.ofList_toList] at read
  cases found : (Run.all source.toList).find? Run.isBad with
  | some run =>
      rw [found] at read
      have shown := Run.literalOf_eq (List.mem_of_find?_eq_some found) (Run.good_of_find? found)
      have misread : (ofSource source).value =
          .error ⟨.invalidNumber run.literal, some source⟩ := by
        rw [read, shown]
        rfl
      exact ⟨misread, Evaluation.value_evaluate_of_failure misread⟩
  | none =>
      rw [found] at read
      obtain ⟨tokens, success, numbers⟩ := read
      have good : ∀ run ∈ Run.all source.toList, run.isBad = false := by
        simpa using List.find?_eq_none.mp found
      exact ⟨⟨tokens, success, forall₂_value_of_good good numbers⟩,
        Evaluation.value_evaluate_ne_invalidNumber success⟩

end Token

end DeskCalculator
