import DeskCalculator.Numeric.FixedPlaces
import Mathlib.Data.List.TakeWhile
import Mathlib.Tactic

/-!
# Runs of digits

Writing a number in decimal digits and reading the digits gives the number back.  Zeros in front do
not count, and leaving out zeros at the end divides by a power of ten.
-/

namespace DeskCalculator

namespace Decimal

theorem ofDigits_toDigits (n : Nat) : ofDigits (Nat.toDigits 10 n) = n :=
  Nat.ofDigitChars_ten_toDigits

theorem exists_head?_toDigits_ne {n : Nat} (positive : 0 < n) :
    ∃ c ∈ (Nat.toDigits 10 n).head?, c ≠ '0' := by
  induction n using Nat.strongRecOn with
  | ind n induction =>
      rcases Nat.lt_or_ge n 10 with single | several
      · rw [Nat.toDigits_of_lt_base single]
        exact ⟨n.digitChar, rfl, by interval_cases n <;> decide⟩
      · obtain ⟨c, first, nonzero⟩ := induction (n / 10) (by omega) (by omega)
        rw [Nat.toDigits_of_base_le (by decide) several]
        exact ⟨c, List.mem_head?_append_of_mem_head? first, nonzero⟩

theorem ofDigits_append (front behind : List Char) :
    ofDigits (front ++ behind) = ofDigits front * 10 ^ behind.length + ofDigits behind := by
  have split : ofDigits (front ++ behind) = Nat.ofDigitChars 10 behind (ofDigits front) :=
    Nat.ofDigitChars_append 0
  rw [split, Nat.ofDigitChars_eq_ofDigitChars_zero, Nat.mul_comm]
  rfl

theorem ofDigits_replicate_zero (count : Nat) : ofDigits (List.replicate count '0') = 0 := by
  have zeros : ofDigits (List.replicate count '0') = 10 ^ count * 0 :=
    Nat.ofDigitChars_replicate_zero
  rw [zeros, Nat.mul_zero]

theorem ofDigits_zeros_append (front behind : Nat) (digits : List Char) :
    ofDigits (List.replicate front '0' ++ digits ++ List.replicate behind '0') =
      ofDigits digits * 10 ^ behind := by
  rw [ofDigits_append, ofDigits_append, ofDigits_replicate_zero, ofDigits_replicate_zero,
    List.length_replicate, Nat.zero_mul, Nat.zero_add, Nat.add_zero]

end Decimal

/-- The zeros left out at the end of a run complete it again. -/
theorem Layout.exists_dropTrailingZeros_append (digits : List Char) :
    ∃ zeros, dropTrailingZeros digits ++ List.replicate zeros '0' = digits := by
  set zeros := digits.reverse.takeWhile (· == '0') with zeros_eq
  have only_zeros : zeros = List.replicate zeros.length '0' :=
    List.eq_replicate_of_mem fun c member => by simpa using List.mem_takeWhile_imp member
  refine ⟨zeros.length, ?_⟩
  have split := List.takeWhile_append_dropWhile (p := (· == '0')) (l := digits.reverse)
  rw [← zeros_eq] at split
  have mirrored := congrArg List.reverse split
  rw [List.reverse_append, List.reverse_reverse] at mirrored
  rw [dropTrailingZeros, ← List.reverse_replicate, ← only_zeros]
  exact mirrored

theorem Layout.mem_of_mem_dropTrailingZeros {digits : List Char} {c : Char}
    (member : c ∈ dropTrailingZeros digits) : c ∈ digits := by
  obtain ⟨zeros, complete⟩ := exists_dropTrailingZeros_append digits
  rw [← complete]
  exact List.mem_append_left _ member

theorem Layout.ne_zero_of_mem_getLast? {digits : List Char} {c : Char}
    (last : c ∈ (dropTrailingZeros digits).getLast?) : c ≠ '0' := by
  rw [dropTrailingZeros, List.getLast?_reverse] at last
  have stopped := List.head?_dropWhile_not (· == '0') digits.reverse
  rw [Option.mem_def.mp last] at stopped
  simpa using stopped

namespace FixedPlaces

theorem ofDigits_paddedDigits (width n : Nat) : Decimal.ofDigits (paddedDigits width n) = n := by
  rw [paddedDigits, Decimal.ofDigits_append, Decimal.ofDigits_replicate_zero, Nat.zero_mul,
    Nat.zero_add, Decimal.ofDigits_toDigits]

theorem length_paddedDigits {width n : Nat} (positive : 0 < width) (fits : n < 10 ^ width) :
    (paddedDigits width n).length = width := by
  have short := (Nat.length_toDigits_le_iff (b := 10) (by decide) positive).mpr fits
  rw [paddedDigits, List.length_append, List.length_replicate]
  omega

theorem isDigit_of_mem_toDigits {n : Nat} {c : Char} (member : c ∈ Nat.toDigits 10 n) : c.isDigit :=
  Nat.isDigit_of_mem_toDigits (by decide) le_rfl member

theorem isDigit_of_mem_paddedDigits {width n : Nat} {c : Char} (member : c ∈ paddedDigits width n) :
    c.isDigit := by
  rw [paddedDigits, List.mem_append] at member
  rcases member with zero | digit
  · rw [List.eq_of_mem_replicate zero]
    rfl
  · exact isDigit_of_mem_toDigits digit

theorem isDigit_of_mem_fraction {places units : Nat} {c : Char}
    (member : c ∈ fraction places units) : c.isDigit :=
  isDigit_of_mem_paddedDigits (Layout.mem_of_mem_dropTrailingZeros member)

theorem fraction_zero (units : Nat) : fraction 0 units = [] := by
  rw [fraction, tenPow_zero, Nat.mod_one]
  rfl

theorem mem_writeSigned {places : Int} {negative : Bool} {units : Nat} {c : Char}
    (member : c ∈ writeSigned places negative units) : c.isDigit ∨ c = '.' ∨ c = '-' := by
  rw [writeSigned, List.mem_append, write, List.mem_append] at member
  rcases member with inSign | inWhole | inFraction
  · split at inSign
    · simp at inSign
    · cases negative with
      | true => exact Or.inr (Or.inr (List.mem_singleton.mp inSign))
      | false => simp [Layout.sign] at inSign
  · exact Or.inl (isDigit_of_mem_toDigits inWhole)
  · split at inFraction
    · simp at inFraction
    · rcases List.mem_cons.mp inFraction with rfl | inPlaces
      · exact Or.inr (Or.inl rfl)
      · exact Or.inl (isDigit_of_mem_fraction inPlaces)

/-- The digits before the point and those behind it together write the count of units, but for the
zeros left out at the end. -/
theorem exists_ofDigits_write (places units : Nat) :
    ∃ zeros, (fraction places units).length + zeros = places ∧
      Decimal.ofDigits (Nat.toDigits 10 (units / tenPow places) ++ fraction places units) *
        10 ^ zeros = units := by
  rcases places.eq_zero_or_pos with rfl | positive
  · refine ⟨0, ?_, ?_⟩
    · rw [fraction_zero, List.length_nil]
    · rw [fraction_zero, List.append_nil, Decimal.ofDigits_toDigits, tenPow_zero, Nat.div_one,
        pow_zero, Nat.mul_one]
  · obtain ⟨zeros, complete⟩ :=
      Layout.exists_dropTrailingZeros_append (paddedDigits places (units % tenPow places))
    have fits : units % tenPow places < 10 ^ places := Nat.mod_lt _ (tenPow_pos places)
    have padded_length := length_paddedDigits positive fits
    have fraction_eq : fraction places units =
      Layout.dropTrailingZeros (paddedDigits places (units % tenPow places)) := rfl
    refine ⟨zeros, ?_, ?_⟩
    · have lengths := congrArg List.length complete
      rw [List.length_append, List.length_replicate, padded_length] at lengths
      exact lengths
    · have restored : Decimal.ofDigits
          (Nat.toDigits 10 (units / tenPow places) ++ fraction places units) * 10 ^ zeros =
            Decimal.ofDigits (Nat.toDigits 10 (units / tenPow places) ++
              (fraction places units ++ List.replicate zeros '0')) := by
        rw [← Decimal.ofDigits_zeros_append 0, List.replicate_zero, List.nil_append,
          List.append_assoc]
      rw [restored, fraction_eq, complete, Decimal.ofDigits_append, Decimal.ofDigits_toDigits,
        ofDigits_paddedDigits, padded_length]
      exact Nat.div_add_mod' units (tenPow places)

end FixedPlaces
end DeskCalculator
