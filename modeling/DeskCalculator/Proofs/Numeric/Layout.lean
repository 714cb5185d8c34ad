import DeskCalculator.Proofs.Grammar
import DeskCalculator.Proofs.Numeric.Decimal
import DeskCalculator.Proofs.Numeric.Digits

/-!
# Reading written numbers

`Layout.rational?` is the number that a text denotes, with or without an exponent.  The written form
of a finite number denotes its shortest decimal, wherever the point stands among the digits.
-/

namespace DeskCalculator

namespace Layout

open Decimal (ofDigits)

/-! ## Numerals with an exponent -/

theorem ne_exponent_of_isNumeral {run : List Char} (numerals : ∀ c ∈ run, Lexeme.isNumeral c) :
    ∀ c ∈ run, (c != 'e') = true := by
  intro c member
  rw [bne_iff_ne]
  rintro rfl
  exact absurd (numerals 'e' member) (by decide)

theorem readDecimal?_of_isNumeral {run : List Char} (numerals : ∀ c ∈ run, Lexeme.isNumeral c) :
    readDecimal? run = Decimal.ofNumeral? run := by
  have plain := ne_exponent_of_isNumeral numerals
  rw [readDecimal?, List.takeWhile_eq_self_iff.mpr plain, List.dropWhile_eq_nil_iff.mpr plain]
  cases Decimal.ofNumeral? run <;> rfl

theorem readDecimal?_text (numeral : Numeral) : readDecimal? numeral.text = some numeral.decimal :=
  (readDecimal?_of_isNumeral numeral.text_isNumeral).trans numeral.ofNumeral?_text

theorem readDecimal?_text_append (numeral : Numeral) {power : List Char} {exponent : Int}
    (reads : readExponent? power = some exponent) :
    readDecimal? (numeral.text ++ 'e' :: power) =
      some ⟨numeral.decimal.coefficient, numeral.decimal.exponent + exponent⟩ := by
  have plain := ne_exponent_of_isNumeral numeral.text_isNumeral
  have mark : ('e' != 'e') = false := rfl
  rw [readDecimal?, List.takeWhile_append_of_pos plain, List.dropWhile_append_of_pos plain,
    List.takeWhile_cons, List.dropWhile_cons, mark, if_neg Bool.false_ne_true,
    if_neg Bool.false_ne_true, List.append_nil, numeral.ofNumeral?_text]
  simp only [reads, Option.bind_eq_bind, Option.bind_some]

theorem readDigits?_paddedDigits (width n : Nat) :
    readDigits? (FixedPlaces.paddedDigits width n) = some n := by
  have some_digit : (FixedPlaces.paddedDigits width n).isEmpty = false :=
    List.isEmpty_eq_false_iff.mpr (List.append_ne_nil_of_right_ne_nil _ Nat.toDigits_ne_nil)
  have only_digits : (FixedPlaces.paddedDigits width n).all Char.isDigit :=
    List.all_eq_true.mpr fun c member => FixedPlaces.isDigit_of_mem_paddedDigits member
  rw [readDigits?, some_digit, only_digits, FixedPlaces.ofDigits_paddedDigits]
  rfl

theorem readExponent?_sign (width : Nat) (exponent : Int) :
    readExponent? ((if exponent < 0 then '-' else '+') ::
      FixedPlaces.paddedDigits width exponent.natAbs) = some exponent := by
  split
  next negative =>
    rw [readExponent?, readDigits?_paddedDigits]
    change some (-(exponent.natAbs : Int)) = _
    rw [Int.ofNat_natAbs_of_nonpos negative.le, neg_neg]
  next positive =>
    rw [readExponent?, readDigits?_paddedDigits]
    change some (exponent.natAbs : Int) = _
    rw [Int.natAbs_of_nonneg (not_lt.mp positive)]

/-! ## Layouts -/

theorem plain_of_nonpos (digits : List Char) {point : Int} (small : point ≤ 0) :
    plain digits point = ['0'] ++ '.' :: (List.replicate (-point).toNat '0' ++ digits) := by
  rw [plain, if_pos small]
  rfl

theorem plain_of_lt {digits : List Char} {point : Nat} (positive : 0 < point)
    (inside : point < digits.length) :
    plain digits point = digits.take point ++ '.' :: digits.drop point := by
  have fraction_ne : (digits.drop point).isEmpty = false := by
    rw [List.isEmpty_eq_false_iff, ne_eq, List.drop_eq_nil_iff]
    omega
  have full : point - (digits.take point).length = 0 := by
    rw [List.length_take]
    omega
  rw [plain, if_neg (by omega), Int.toNat_natCast]
  simp only [full, fraction_ne, List.replicate_zero, List.append_nil]
  rfl

theorem plain_of_le {digits : List Char} {point : Nat} (positive : 0 < point)
    (beyond : digits.length ≤ point) :
    plain digits point =
      (digits ++ List.replicate (point - digits.length) '0') ++ '.' :: ['0'] := by
  rw [plain, if_neg (by omega), Int.toNat_natCast, List.take_of_length_le beyond,
    List.drop_eq_nil_of_le beyond]
  rfl

section

variable {digits : List Char} (only_digits : ∀ c ∈ digits, c.isDigit)
include only_digits

/-- Digits among zeros, with or without a point between them, are a numeral.  It stands for the
digits, scaled by the zeros behind them and by the places behind the point. -/
private theorem exists_numeral {whole : List Char} {places : Option (List Char)}
    {front behind : Nat} (nonempty : whole ++ places.getD [] ≠ [])
    (run : whole ++ places.getD [] =
      List.replicate front '0' ++ digits ++ List.replicate behind '0') :
    ∃ numeral : Numeral, numeral.text = whole ++ (places.map ('.' :: ·)).getD [] ∧
      numeral.decimal.toRat = ofDigits digits * 10 ^ ((behind : ℤ) - (places.getD []).length) := by
  have zero_isDigit {count : Nat} {c : Char} (member : c ∈ List.replicate count '0') :
      c.isDigit := by
    rw [List.eq_of_mem_replicate member]
    rfl
  have run_isDigit : ∀ c ∈ whole ++ places.getD [], c.isDigit := by
    intro c member
    rw [run, List.mem_append, List.mem_append] at member
    rcases member with (inFront | inDigits) | inBehind
    · exact zero_isDigit inFront
    · exact only_digits c inDigits
    · exact zero_isDigit inBehind
  refine ⟨⟨whole, places, run_isDigit, nonempty⟩, rfl, ?_⟩
  rw [Decimal.toRat, Numeral.decimal, run, Decimal.ofDigits_zeros_append, sub_eq_add_neg,
    zpow_add₀ (by norm_num), zpow_natCast, ← mul_assoc]
  push_cast
  rfl

private theorem exists_readDecimal?_point {whole places : List Char} {front behind : Nat}
    {point : ℤ} (nonempty : whole ++ places ≠ [])
    (run : whole ++ places = List.replicate front '0' ++ digits ++ List.replicate behind '0')
    (shift : (behind : ℤ) - places.length = point - digits.length) :
    ∃ read, readDecimal? (whole ++ '.' :: places) = some read ∧
      read.toRat = ofDigits digits * 10 ^ (point - digits.length) := by
  have run' : whole ++ (some places).getD [] = _ := run
  obtain ⟨numeral, text, number⟩ := exists_numeral only_digits nonempty run'
  refine ⟨numeral.decimal, ?_, ?_⟩
  · rw [← readDecimal?_text, text]
    rfl
  · rw [number, Option.getD_some, shift]

theorem exists_readDecimal?_plain (point : Int) :
    ∃ read, readDecimal? (plain digits point) = some read ∧
      read.toRat = ofDigits digits * 10 ^ (point - digits.length) := by
  rcases le_or_gt point 0 with small | large
  · have run : ['0'] ++ (List.replicate (-point).toNat '0' ++ digits) =
        List.replicate ((-point).toNat + 1) '0' ++ digits ++ List.replicate 0 '0' := by
      rw [List.replicate_succ, List.replicate_zero, List.append_nil]
      rfl
    rw [plain_of_nonpos digits small]
    refine exists_readDecimal?_point only_digits (List.cons_ne_nil _ _) run ?_
    rw [List.length_append, List.length_replicate]
    omega
  · obtain ⟨width, rfl⟩ := Int.eq_ofNat_of_zero_le large.le
    have positive : 0 < width := by omega
    rcases Nat.lt_or_ge width digits.length with inside | beyond
    · have run : digits.take width ++ digits.drop width =
          List.replicate 0 '0' ++ digits ++ List.replicate 0 '0' := by
        simp
      have some_digit : digits ≠ [] := List.ne_nil_of_length_pos (by omega)
      rw [plain_of_lt positive inside]
      refine exists_readDecimal?_point only_digits ?_ run ?_
      · rwa [List.take_append_drop]
      · rw [List.length_drop]
        omega
    · have run : (digits ++ List.replicate (width - digits.length) '0') ++ ['0'] =
          List.replicate 0 '0' ++ digits ++ List.replicate (width - digits.length + 1) '0' := by
        simp [List.replicate_succ']
      rw [plain_of_le positive beyond]
      refine exists_readDecimal?_point only_digits ?_ run ?_
      · exact List.append_ne_nil_of_right_ne_nil _ (List.cons_ne_nil _ _)
      · rw [List.length_singleton]
        omega

/-- One digit, the others behind a point and an exponent denote the digits as the exponent of the
first one scales them. -/
theorem exists_readDecimal?_scientific (layout : Layout) (nonempty : digits ≠ []) (exponent : Int) :
    ∃ read, readDecimal? (layout.scientific digits exponent) = some read ∧
      read.toRat = ofDigits digits * 10 ^ (exponent + 1 - digits.length) := by
  obtain ⟨first, others, rfl⟩ := List.exists_cons_of_ne_nil nonempty
  set places := if others.isEmpty then none else some others with places_eq
  have behind : places.getD [] = others := by
    cases others <;> rfl
  have run : [first] ++ places.getD [] =
      List.replicate 0 '0' ++ (first :: others) ++ List.replicate 0 '0' := by
    rw [behind]
    simp
  obtain ⟨numeral, text, number⟩ := exists_numeral only_digits (by simp) run
  have written : layout.scientific (first :: others) exponent =
      numeral.text ++ 'e' :: (if exponent < 0 then '-' else '+') ::
        FixedPlaces.paddedDigits layout.exponentDigits exponent.natAbs := by
    rw [text, places_eq]
    cases others <;> rfl
  rw [written, readDecimal?_text_append numeral (readExponent?_sign _ exponent)]
  refine ⟨_, rfl, ?_⟩
  rw [Decimal.toRat_add_exponent, number, behind, mul_assoc, ← zpow_add₀ (by norm_num)]
  congr 2
  simp
  omega

end

/-- The zeros at the end of the digits of a decimal only shift the point. -/
private theorem toRat_eq_ofDigits (d : Decimal) :
    d.toRat = ofDigits (dropTrailingZeros d.digits) *
      10 ^ ((d.digits.length : ℤ) + d.exponent - (dropTrailingZeros d.digits).length) := by
  obtain ⟨zeros, complete⟩ := exists_dropTrailingZeros_append d.digits
  have coefficient_eq : d.coefficient = ofDigits (dropTrailingZeros d.digits) * 10 ^ zeros := by
    rw [← Decimal.ofDigits_zeros_append 0, List.replicate_zero, List.nil_append, complete]
    exact (Decimal.ofDigits_toDigits d.coefficient).symm
  have length := congrArg List.length complete
  rw [List.length_append, List.length_replicate] at length
  have shift : (d.digits.length : ℤ) + d.exponent - (dropTrailingZeros d.digits).length =
      zeros + d.exponent := by
    omega
  rw [Decimal.toRat, coefficient_eq, shift, zpow_add₀ (by norm_num), zpow_natCast, ← mul_assoc]
  push_cast
  rfl

theorem exists_readDecimal?_writeDecimal (layout : Layout) (d : Decimal) :
    ∃ read, readDecimal? (layout.writeDecimal d) = some read ∧ read.toRat = d.toRat := by
  have number := toRat_eq_ofDigits d
  have only_digits : ∀ c ∈ dropTrailingZeros d.digits, c.isDigit := fun c member =>
    FixedPlaces.isDigit_of_mem_toDigits (mem_of_mem_dropTrailingZeros member)
  rcases eq_or_ne d.coefficient 0 with zero | nonzero
  · refine ⟨⟨0, -1⟩, ?_, ?_⟩
    · simp only [writeDecimal, if_pos zero]
      rfl
    · simp [Decimal.toRat, zero]
  · simp only [writeDecimal, if_neg nonzero]
    split
    next =>
      rw [number]
      exact exists_readDecimal?_plain only_digits _
    next =>
      have nonempty : dropTrailingZeros d.digits ≠ [] := by
        intro empty
        have nothing : d.toRat = 0 := by
          rw [number, empty]
          exact zero_mul _
        rw [Decimal.toRat, mul_eq_zero, Nat.cast_eq_zero] at nothing
        exact nothing.elim nonzero (zpow_ne_zero _ (by norm_num))
      have reads := exists_readDecimal?_scientific only_digits layout nonempty
        ((d.digits.length : ℤ) + d.exponent - 1)
      rw [sub_add_cancel, ← number] at reads
      exact reads

/-! ## Texts -/

/-- The number that a text denotes; a text that writes no number denotes none. -/
def rational? (text : String) : Option ℚ :=
  match text.toList with
  | '-' :: rest => (readDecimal? rest).map (Decimal.signed true)
  | rest => (readDecimal? rest).map (Decimal.signed false)

theorem readDecimal?_minus (rest : List Char) : readDecimal? ('-' :: rest) = none := by
  simp [readDecimal?, Decimal.ofNumeral?]

theorem rational?_sign_append (negative : Bool) {text : List Char} {d : Decimal}
    (reads : readDecimal? text = some d) :
    rational? (String.ofList (sign negative ++ text)) = some (d.signed negative) := by
  rw [rational?, String.toList_ofList]
  cases negative with
  | true =>
      change (readDecimal? text).map (Decimal.signed true) = _
      rw [reads, Option.map_some]
  | false =>
      change (match text with
        | '-' :: rest => (readDecimal? rest).map (Decimal.signed true)
        | rest => (readDecimal? rest).map (Decimal.signed false)) = _
      split
      next rest =>
        rw [readDecimal?_minus] at reads
        contradiction
      next => rw [reads, Option.map_some]

/-- The written form of a finite number denotes its shortest decimal. -/
theorem rational?_write (layout : Layout) {x : Float} {negative : Bool} {magnitude : Nat}
    (seen : Binary64.view x = .finite negative magnitude) :
    rational? (layout.write x) = some ((Decimal.shortest magnitude).signed negative) := by
  obtain ⟨read, reads, same⟩ :=
    exists_readDecimal?_writeDecimal layout (Decimal.shortest magnitude)
  rw [write, seen]
  refine (rational?_sign_append negative reads).trans ?_
  rw [Decimal.signed, Decimal.signed, same]

end Layout
end DeskCalculator
