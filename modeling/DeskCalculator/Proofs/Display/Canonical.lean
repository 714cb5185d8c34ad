import DeskCalculator.Proofs.Display.Readback
import DeskCalculator.Proofs.Numeric.Layout

/-!
# The canonical text of a number

What the display writes of a finite number has no zero where none is needed, and no sign on zero.
The text denotes the multiple of the last place that is nearest to the decimal of the written form,
halfway the one with an even last digit.
-/

namespace DeskCalculator

/-- A numeral is canonical for a number of places if it has no zero more than it needs. -/
structure Numeral.IsCanonical (places : Nat) (numeral : Numeral) : Prop where
  /-- In front of the point stands a single zero or a digit other than zero. -/
  whole : numeral.whole = ['0'] ∨ ∃ c ∈ numeral.whole.head?, c ≠ '0'
  /-- Behind a point stand some digits, no more than the places, and the last of them is no zero. -/
  places : ∀ behind ∈ numeral.places, behind.length ≤ places ∧ ∃ c ∈ behind.getLast?, c ≠ '0'

namespace FixedPlaces

variable {places : Nat}

theorem isCanonical_numeral (units : Nat) : (numeral places units).IsCanonical places := by
  constructor
  · have whole_eq : (numeral places units).whole = Nat.toDigits 10 (units / tenPow places) := rfl
    rw [whole_eq]
    rcases (units / tenPow places).eq_zero_or_pos with zero | positive
    · left
      rw [zero]
      rfl
    · exact Or.inr (Decimal.exists_head?_toDigits_ne positive)
  · intro behind present
    obtain ⟨zeros, length, -⟩ := exists_ofDigits_write places units
    rw [numeral] at present
    split at present
    next => contradiction
    next some_digit =>
      obtain rfl := Option.some.inj present
      have last := List.getLast?_eq_getLast_of_ne_nil (mt List.isEmpty_iff.mpr some_digit)
      exact ⟨by omega, _, last, Layout.ne_zero_of_mem_getLast? last⟩

/-- A count of units after a sign. -/
def signedCount (negative : Bool) (units : Nat) : ℤ := if negative then -units else units

theorem signedCount_eq_zero_iff {negative : Bool} {units : Nat} :
    signedCount negative units = 0 ↔ units = 0 := by
  cases negative <;> simp [signedCount]

theorem isNearest_signedCount (negative : Bool) (d : Decimal) :
    IsNearest places (d.signed negative) (signedCount negative (round places d)) := by
  cases negative with
  | true => exact (isNearest_round places d).neg
  | false => exact isNearest_round places d

/-- A written count denotes as many units, the sign included. -/
theorem rational?_writeSigned (negative : Bool) (units : Nat) :
    Layout.rational? (String.ofList (writeSigned places negative units)) =
      some ((signedCount negative units : ℚ) / 10 ^ places) := by
  rw [writeSigned_eq, Layout.rational?_sign_append _ (Layout.readDecimal?_text _), Decimal.signed,
    toRat_numeral]
  rcases eq_or_ne units 0 with rfl | some_units
  · simp [signedCount]
  · cases negative <;> simp [signedCount, some_units, neg_div]

end FixedPlaces

namespace Display

open Binary64 (ofMagnitude view)

variable {places : Nat} {x : Float} {negative : Bool} {magnitude : Nat}

example : write? 92 (ofMagnitude false (Binary64.infinityWord - 1)) = none := by decide +kernel

/-- The names of what is no finite number have a character that no numeral has. -/
theorem write_not_mem_names (seen : view x = .finite negative magnitude) :
    write places x ∉ ["NaN", "∞", "-∞"] := by
  have only_numeral {c : Char} (member : c ∈ (write places x).toList) :
      c.isDigit ∨ c = '.' ∨ c = '-' := by
    rw [write_of_view places seen, String.toList_ofList] at member
    exact FixedPlaces.mem_writeSigned member
  have nameless {c : Char} (other : ¬ (c.isDigit ∨ c = '.' ∨ c = '-')) {name : String}
      (begins : c ∈ name.toList) : write places x ≠ name := by
    rintro rfl
    exact other (only_numeral begins)
  have infinite : ¬ ('∞'.isDigit ∨ '∞' = '.' ∨ '∞' = '-') := by decide
  simp only [List.mem_cons, List.not_mem_nil, or_false, not_or]
  exact ⟨nameless (by decide : ¬ ('N'.isDigit ∨ 'N' = '.' ∨ 'N' = '-')) (by decide),
    nameless infinite (by decide), nameless infinite (by decide)⟩

/--
For up to 91 places every finite number has a text, and the text is a canonical numeral, with a
minus sign only where it is not zero.  Of the multiples of the last place it denotes the one nearest
to the decimal of the written form, halfway the one with an even last digit.  What is no finite
number has a name that no finite number has.
-/
theorem write_canonical (room : places ≤ 91) (x : Float) :
    (∀ negative magnitude, view x = .finite negative magnitude →
      ∃ (minus : Bool) (numeral : Numeral) (number : ℚ) (count : ℤ),
        write? places x = some (write places x) ∧
        (write places x).toList = Layout.sign minus ++ numeral.text ∧
        numeral.IsCanonical places ∧ (minus → count ≠ 0) ∧
        Layout.rational? (Layout.standard.write x) = some number ∧
        Layout.rational? (write places x) = some ((count : ℚ) / 10 ^ places) ∧
        FixedPlaces.IsNearest places number count ∧
        write places x ∉ ["NaN", "∞", "-∞"]) ∧
    (view x = .nan → write? places x = some "NaN") ∧
    ∀ negative, view x = .infinite negative →
      write? places x = some (if negative then "-∞" else "∞") := by
  refine ⟨fun negative magnitude seen => ?_, fun seen => ?_, fun negative seen => ?_⟩
  · set units := FixedPlaces.round places (Decimal.shortest magnitude)
    have text := write_of_view places seen
    refine ⟨negative && units != 0, FixedPlaces.numeral places units,
      (Decimal.shortest magnitude).signed negative, FixedPlaces.signedCount negative units,
      write?_eq_some room x, ?_, FixedPlaces.isCanonical_numeral units, fun minus => ?_,
      Layout.rational?_write _ seen, ?_, FixedPlaces.isNearest_signedCount negative _,
      write_not_mem_names seen⟩
    · rw [text, String.toList_ofList, FixedPlaces.writeSigned_eq]
    · rw [ne_eq, FixedPlaces.signedCount_eq_zero_iff]
      exact bne_iff_ne.mp (Bool.and_eq_true_iff.mp minus).2
    · rw [text, FixedPlaces.rational?_writeSigned]
  · rw [write?, write, seen]
  · rw [write?, write, seen]
    cases negative <;> rfl

/-- `2.675` lies halfway between two hundredths and is shown as the even one, although the number in
binary lies below the middle. -/
theorem write_middle_of_hundredths :
    Binary64.view 2.675 = .finite false 0x4005666666666666 ∧ write? 2 2.675 = some "2.68" ∧
      Layout.standard.write 2.675 = "2.675" ∧ FixedPlaces.IsNearest 2 (2675 / 1000) 268 := by
  have seen : Binary64.view 2.675 = .finite false 0x4005666666666666 := by decide +kernel
  have shown : write (2 : ℕ) 2.675 = "2.68" := by decide +kernel
  have written : Layout.standard.write 2.675 = "2.675" := by decide +kernel
  have read : Layout.readDecimal? ['2', '.', '6', '7', '5'] = some ⟨2675, -3⟩ := by decide
  have read_shown : Layout.readDecimal? ['2', '.', '6', '8'] = some ⟨268, -2⟩ := by decide
  obtain ⟨-, -, number, count, text, -, -, -, denoted, denoted_shown, nearest, -⟩ :=
    (write_canonical (by decide : 2 ≤ 91) 2.675).1 _ _ seen
  rw [written] at denoted
  rw [shown] at text denoted_shown
  have number_eq : number = 2675 / 1000 := by
    have same := denoted.symm.trans (Layout.rational?_sign_append false read)
    rw [Option.some.inj same]
    norm_num [Decimal.signed, Decimal.toRat]
  have count_eq : count = 268 := by
    have same := denoted_shown.symm.trans (Layout.rational?_sign_append false read_shown)
    have hundredths : (count : ℚ) / 10 ^ 2 = 268 / 100 := by
      rw [Option.some.inj same]
      norm_num [Decimal.signed, Decimal.toRat]
    have cast_eq : (count : ℚ) = 268 := by linarith
    exact_mod_cast cast_eq
  rw [number_eq, count_eq] at nearest
  exact ⟨seen, text, written, nearest⟩

end Display
end DeskCalculator
