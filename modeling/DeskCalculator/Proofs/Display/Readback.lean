import DeskCalculator.Proofs.Display.Units
import DeskCalculator.Proofs.Grammar.Value
import DeskCalculator.Proofs.Numeric.Bits
import DeskCalculator.Proofs.Numeric.Digits

/-!
# Typing a shown number

What the display shows of a finite number is a numeral, with a minus sign unless it is zero.  Typed
back it is a number within a unit of the last place, of which the same is shown, and from `2 ^ 26`
on the very number.
-/

namespace DeskCalculator

namespace FixedPlaces

variable {places : Nat}

/-- The numeral that writes a count of units of the last place. -/
def numeral (places units : Nat) : Numeral where
  whole := Nat.toDigits 10 (units / tenPow places)
  places := if (fraction places units).isEmpty then none else some (fraction places units)
  digits := by
    intro c member
    rcases List.mem_append.mp member with whole | behind
    · exact isDigit_of_mem_toDigits whole
    · split at behind
      · contradiction
      · exact isDigit_of_mem_fraction behind
  nonempty := List.append_ne_nil_of_left_ne_nil Nat.toDigits_ne_nil _

theorem places_numeral (units : Nat) :
    (numeral places units).places.getD [] = fraction places units := by
  simp only [numeral]
  split
  next empty => rw [List.isEmpty_iff.mp empty, Option.getD_none]
  next => rfl

theorem text_numeral (units : Nat) : (numeral places units).text = write places units := by
  simp only [Numeral.text, numeral, write, Int.toNat_natCast, Int.toNat_neg_natCast, tenPow_zero,
    Nat.mul_one]
  split
  · rfl
  · rfl

theorem toRat_numeral (units : Nat) :
    (numeral places units).decimal.toRat = units / 10 ^ places := by
  obtain ⟨zeros, length, restored⟩ := exists_ofDigits_write places units
  have power : (10 : ℚ) ^ places = 10 ^ (fraction places units).length * 10 ^ zeros := by
    rw [← pow_add, length]
  have count : (units : ℚ) = Decimal.ofDigits
      (Nat.toDigits 10 (units / tenPow places) ++ fraction places units) * 10 ^ zeros := by
    exact_mod_cast restored.symm
  rw [power, count, mul_div_mul_right _ _ (by positivity), Decimal.toRat, Numeral.decimal,
    places_numeral, zpow_neg, zpow_natCast, ← div_eq_mul_inv]
  rfl

theorem writeSigned_eq (places : Nat) (negative : Bool) (units : Nat) :
    writeSigned places negative units =
      Layout.sign (negative && units != 0) ++ (numeral places units).text := by
  rw [writeSigned, text_numeral]
  rcases eq_or_ne units 0 with rfl | some_units
  · rw [if_pos rfl, bne_self_eq_false, Bool.and_false]
    rfl
  · rw [if_neg some_units, bne_iff_ne.mpr some_units, Bool.and_true]

/-- The sign that zero loses makes no difference to what is written. -/
theorem writeSigned_shown_sign (places : Nat) (negative : Bool) (units : Nat) :
    writeSigned places (negative && units != 0) units = writeSigned places negative units := by
  rw [writeSigned_eq, writeSigned_eq, Bool.and_assoc, Bool.and_self]

end FixedPlaces

namespace Display

open Binary64 (RoundsTo infinityWord ofMagnitude signed size toRat?)

theorem write_of_view (places : Int) {x : Float} {negative : Bool} {magnitude : Nat}
    (seen : Binary64.view x = .finite negative magnitude) :
    write places x = String.ofList (FixedPlaces.writeSigned places negative
      (FixedPlaces.round places (Decimal.shortest magnitude))) := by
  rw [write, seen]

theorem write_ofMagnitude (negative : Bool) {magnitude : Nat} (finite : magnitude < infinityWord) :
    write places (ofMagnitude negative magnitude) =
      String.ofList (FixedPlaces.writeSigned places negative (units magnitude)) :=
  write_of_view places (Binary64.view_ofMagnitude negative finite)

theorem spells_write (negative : Bool) {magnitude : Nat} (finite : magnitude < infinityWord) :
    (Expression.literal (negative && units magnitude != 0)
      (FixedPlaces.numeral 8 (units magnitude))).Spells
        (write places (ofMagnitude negative magnitude)).toList := by
  have text : FixedPlaces.writeSigned places negative (units magnitude) = _ :=
    FixedPlaces.writeSigned_eq 8 negative (units magnitude)
  rw [write_ofMagnitude negative finite, String.toList_ofList, text]
  exact .literal _ _

/-- The numeral shown of a magnitude has the value of the word at which its units are read. -/
theorem value_numeral (negative : Bool) {units read : Nat} (finite : read < infinityWord)
    (rounds : RoundsTo (units / 10 ^ 8) read) :
    (FixedPlaces.numeral 8 units).value negative = ofMagnitude negative read := by
  have reads : (FixedPlaces.numeral 8 units).decimal.magnitude = read := by
    refine Decimal.magnitude_eq_of_roundsTo finite ?_
    rw [FixedPlaces.toRat_numeral]
    exact rounds
  rw [Numeral.value, Decimal.toFloat, reads]

/-- A count of zero loses the sign, but then the word read is that of zero. -/
private theorem shown_sign_or_zero (negative : Bool) {units read : Nat}
    (rounds : RoundsTo (units / 10 ^ 8) read) : (negative && units != 0) = negative ∨ read = 0 := by
  rcases eq_or_ne units 0 with rfl | some_units
  · rw [Nat.cast_zero, zero_div, ← Binary64.size_zero] at rounds
    exact Or.inr (rounds.unique (RoundsTo.ofSize 0))
  · exact Or.inl (by rw [bne_iff_ne.mpr some_units, Bool.and_true])

/--
A shown number can be typed back: its text is one token, which evaluates to a finite number within
`10 ^ (-8)` of the one that was shown.  The same text is shown of both, and from `2 ^ 26` on they
are the same.
-/
theorem evaluate_write [Arithmetic] {x : Float} {value : ℚ} (finite : toRat? x = some value) :
    ∃ y shown, toRat? y = some shown ∧
      (Token.ofSource (write places x)).value = .ok [.number y] ∧
      (Evaluation.evaluate (write places x)).value = .ok y ∧
      |shown - value| ≤ 1 / 10 ^ 8 ∧ write places y = write places x ∧
      (2 ^ 26 ≤ |value| → y = x) := by
  obtain ⟨negative, magnitude, bounded, rfl, rfl⟩ := Binary64.exists_ofMagnitude finite
  obtain ⟨read, read_bounded, rounds, near, same_units, exact⟩ := exists_roundsTo_units bounded
  have spells := spells_write negative bounded
  set sign := negative && units magnitude != 0 with sign_eq
  have value_eq := value_numeral sign read_bounded rounds
  have sign_or_zero : sign = negative ∨ read = 0 := shown_sign_or_zero negative rounds
  refine ⟨ofMagnitude sign read, _, Binary64.toRat?_ofMagnitude sign read_bounded, ?_, ?_, ?_, ?_,
    fun large => ?_⟩
  · rw [spells.reads.ofSource, ← value_eq]
    rfl
  · rw [Expression.evaluate_of_spells spells, ← value_eq]
    rfl
  · have same_sign : signed sign read = signed negative read := by
      rcases sign_or_zero with same | rfl
      · rw [same]
      · rw [Binary64.signed_zero, Binary64.signed_zero]
    rwa [same_sign, Binary64.abs_signed_sub_signed]
  · rw [write_ofMagnitude sign read_bounded, write_ofMagnitude negative bounded, same_units]
    exact congrArg String.ofList (FixedPlaces.writeSigned_shown_sign 8 negative (units magnitude))
  · rw [Binary64.abs_signed] at large
    obtain rfl := exact large
    rcases sign_or_zero with same | rfl
    · rw [same]
    · rw [Binary64.size_zero] at large
      norm_num at large

/-- `-67108864.33333333` is shown of a number beyond `2 ^ 26` and read as that number. -/
theorem evaluate_write_large_third :
    ∃ y shown, toRat? y = some shown ∧
      (Token.ofSource "-67108864.33333333").value = .ok [.number y] ∧
      (Evaluation.evaluate "-67108864.33333333").value = .ok y ∧
      |shown - -(4503599649740117 / 2 ^ 26)| ≤ 1 / 10 ^ 8 ∧
      write places y = "-67108864.33333333" ∧
      (2 ^ 26 ≤ |(-(4503599649740117 / 2 ^ 26) : ℚ)| → y = -67108864 - 1 / 3) := by
  have number : (-67108864 - 1 / 3 : Float) = ofMagnitude true 4724276009134019925 := by
    decide +kernel
  have finite : toRat? (-67108864 - 1 / 3) = some (-(4503599649740117 / 2 ^ 26)) := by
    rw [number, Binary64.toRat?_ofMagnitude true (by decide)]
    have placed : Binary64.Placed 4724276009134019925 1048 4503599649740117 :=
      ⟨rfl, Or.inr (by decide), by decide⟩
    rw [signed, if_pos rfl, placed.size_eq]
    norm_num
  have text : write places (-67108864 - 1 / 3) = "-67108864.33333333" := by decide +kernel
  have result := evaluate_write finite
  rwa [text] at result

end Display
end DeskCalculator
