import DeskCalculator.Proofs.Numeric.Magnitude
import Mathlib

/-!
# The bits of a number

A finite floating-point number is a sign and a magnitude word and nothing else: its bits survive
being unpacked and packed again.  With the size of the word this makes `Binary64.toRat?`, the
rational number that it is.
-/

namespace DeskCalculator
namespace Binary64

open Float.Model (UnpackedFloat Format)
open Float.Model.UnpackedFloat

/-! ## Packing -/

private theorem toBitVec_ofBitVec (bit : BitVec 1) : (Sign.ofBitVec bit).toBitVec = bit := by
  revert bit
  decide

private theorem toNat_packComponents (sign : BitVec 1) (exponent : BitVec 11)
    (mantissa : BitVec 52) :
    (sign ++ exponent ++ mantissa).toNat =
      (sign.toNat * 2 ^ 11 + exponent.toNat) * 2 ^ 52 + mantissa.toNat := by
  rw [BitVec.toNat_append, BitVec.toNat_append, ← Nat.shiftLeft_add_eq_or_of_lt exponent.isLt,
    ← Nat.shiftLeft_add_eq_or_of_lt mantissa.isLt, Nat.shiftLeft_eq, Nat.shiftLeft_eq]

theorem toNat_unpackMantissa (bits : BitVec Format.binary64.numBits) :
    (unpackMantissa bits).toNat = bits.toNat % 2 ^ 52 := by
  simp [unpackMantissa]

theorem toNat_unpackExponent (bits : BitVec Format.binary64.numBits) :
    (unpackExponent bits).toNat = bits.toNat / 2 ^ 52 % 2 ^ 11 := by
  simp [unpackExponent, Nat.shiftRight_eq_div_pow]

theorem toNat_unpackSign (bits : BitVec Format.binary64.numBits) :
    (unpackSign bits).toNat = bits.toNat / 2 ^ 63 := by
  have bound : bits.toNat < 2 ^ 64 := bits.isLt
  simp [unpackSign, Nat.shiftRight_eq_div_pow]
  omega

private theorem packComponents_unpack (bits : BitVec Format.binary64.numBits) :
    packComponents Format.binary64 (Sign.ofBitVec (unpackSign bits)) (unpackExponent bits)
      (unpackMantissa bits) = bits := by
  apply BitVec.eq_of_toNat_eq
  rw [packComponents, toBitVec_ofBitVec]
  refine (toNat_packComponents _ _ _).trans ?_
  rw [toNat_unpackSign, toNat_unpackExponent, toNat_unpackMantissa]
  omega

private theorem pack_subnormal (sign : Sign) {mantissa : BitVec 52}
    (positive : 0 < mantissa.toNat) :
    UnpackedFloat.pack Format.binary64 (.finite sign mantissa.toNat (-1074) positive) =
      packComponents Format.binary64 sign 0#11 mantissa := by
  have short : mantissa.toNat.log2 < 52 := (Nat.log2_lt positive.ne').mpr mantissa.isLt
  simp only [UnpackedFloat.pack]
  rw [if_neg (by decide), if_neg (by simp [Format.mantissaBits]; omega), BitVec.ofNat_toNat,
    BitVec.setWidth_eq]

private theorem pack_normal (sign : Sign) {exponent : BitVec 11} {mantissa : BitVec 52}
    (bounded : exponent.toNat < 2047) (positive : 0 < (1#1 ++ mantissa).toNat) :
    UnpackedFloat.pack Format.binary64
        (.finite sign (1#1 ++ mantissa).toNat ((exponent.toNat : Int) - 1075) positive) =
      packComponents Format.binary64 sign exponent mantissa := by
  have significand : (1#1 ++ mantissa).toNat = 2 ^ 52 + mantissa.toNat := by
    rw [BitVec.toNat_append, ← Nat.shiftLeft_add_eq_or_of_lt mantissa.isLt, Nat.shiftLeft_eq]
    rfl
  have length : (1#1 ++ mantissa).toNat.log2 = 52 := by
    have bound := mantissa.isLt
    rw [significand]
    exact (Nat.log2_eq_iff (by omega)).mpr ⟨by omega, by omega⟩
  have biased : ((exponent.toNat : Int) - 1075 + Format.binary64.exponentBias + (52 : Nat)).toNat =
      exponent.toNat := by
    have bias : (Format.binary64.exponentBias : Int) = 1023 := rfl
    omega
  have kept : BitVec.ofNat 52 (1#1 ++ mantissa).toNat = mantissa := by
    apply BitVec.eq_of_toNat_eq
    rw [significand, BitVec.toNat_ofNat, Nat.add_mod_left, Nat.mod_eq_of_lt mantissa.isLt]
  simp only [UnpackedFloat.pack, length, Format.mantissaBits]
  rw [if_neg (by rw [biased]; omega), if_pos trivial, biased, kept, BitVec.ofNat_toNat,
    BitVec.setWidth_eq]

/-- Bits survive being read as a number and written again unless their exponent is that of the
infinities and of what is not a number. -/
theorem pack_unpack {bits : BitVec Format.binary64.numBits}
    (bounded : (unpackExponent bits).toNat < 2047) :
    UnpackedFloat.pack Format.binary64 (UnpackedFloat.unpack Format.binary64 bits) = bits := by
  have ordinary : unpackExponent bits ≠ -1#_ := fun full => by
    rw [full] at bounded
    exact absurd bounded (by decide)
  conv => rhs; rw [← packComponents_unpack bits]
  unfold UnpackedFloat.unpack
  simp only [ordinary, if_false]
  split
  next subnormal =>
    rw [subnormal]
    split
    next zero =>
      rw [zero]
      rfl
    next positive => exact pack_subnormal _ _
  next normal => exact pack_normal _ bounded _

theorem toBits_ofBits {word : UInt64} (bounded : word.toNat / 2 ^ 52 % 2 ^ 11 < 2047) :
    (Float.ofBits word).toBits = word := by
  have kept : UnpackedFloat.pack Format.binary64
      (UnpackedFloat.unpack Format.binary64 word.toBitVec) = word.toBitVec :=
    pack_unpack (by rw [toNat_unpackExponent]; exact bounded)
  change UInt64.ofBitVec _ = _
  rw [kept]

theorem ofBits_toBits {x : Float} (bounded : x.toBits.toNat / 2 ^ 52 % 2 ^ 11 < 2047) :
    Float.ofBits x.toBits = x := by
  have kept : (Float.ofBits x.toBits).toModel.toBits = x.toModel.toBits := toBits_ofBits bounded
  rcases same : Float.ofBits x.toBits with ⟨left⟩
  rw [same] at kept
  rcases x with ⟨right⟩
  rcases left with ⟨left_bits, left_valid⟩
  rcases right with ⟨right_bits, right_valid⟩
  simp only at kept
  subst kept
  rfl

/-! ## Sign and magnitude -/

/-- The bits of a sign and a magnitude. -/
def word (negative : Bool) (magnitude : Nat) : Nat :=
  (if negative then 2 ^ 63 else 0) + magnitude

section Word

variable (negative : Bool) {magnitude : Nat} (finite : magnitude < infinityWord)
include finite

private theorem toNat_word :
    (UInt64.ofNat (if negative then twoPow 63 + magnitude else magnitude)).toNat =
      word negative magnitude := by
  have bound : magnitude < 2047 * 2 ^ 52 := finite
  have power : twoPow 63 = 2 ^ 63 := rfl
  cases negative <;> simp [power, word] <;> omega

private theorem exponent_word_lt : word negative magnitude / 2 ^ 52 % 2 ^ 11 < 2047 := by
  have bound : magnitude < 2047 * 2 ^ 52 := finite
  rw [word]
  split <;> omega

private theorem word_mod : word negative magnitude % 2 ^ 63 = magnitude := by
  have bound : magnitude < 2047 * 2 ^ 52 := finite
  rw [word]
  split <;> omega

private theorem decide_le_word : decide (2 ^ 63 ≤ word negative magnitude) = negative := by
  have bound : magnitude < 2047 * 2 ^ 52 := finite
  cases negative with
  | false =>
      have small : 0 + magnitude < 2 ^ 63 := by omega
      exact decide_eq_false (Nat.not_le.mpr small)
  | true => exact decide_eq_true (Nat.le_add_right _ _)

theorem toNat_toBits_ofMagnitude :
    (ofMagnitude negative magnitude).toBits.toNat = word negative magnitude := by
  have written := toNat_word negative finite
  have kept := toBits_ofBits (written ▸ exponent_word_lt negative finite)
  rw [ofMagnitude, kept, written]

theorem view_ofMagnitude : view (ofMagnitude negative magnitude) = .finite negative magnitude := by
  have power : twoPow 63 = 2 ^ 63 := rfl
  rw [view, toNat_toBits_ofMagnitude negative finite, power, word_mod negative finite,
    decide_le_word negative finite]
  exact if_pos finite

end Word

theorem view_ofMagnitude_infinityWord (negative : Bool) :
    view (ofMagnitude negative infinityWord) = .infinite negative := by
  cases negative <;> rfl

theorem view_ofMagnitude_ne_nan (negative : Bool) {magnitude : Nat}
    (bounded : magnitude ≤ infinityWord) : view (ofMagnitude negative magnitude) ≠ .nan := by
  rcases Nat.lt_or_eq_of_le bounded with finite | rfl
  · simp [view_ofMagnitude negative finite]
  · simp [view_ofMagnitude_infinityWord]

/-- Whether the sign bit of a number is set. -/
def isNegative (x : Float) : Bool := decide (2 ^ 63 ≤ x.toBits.toNat)

theorem isNegative_ofMagnitude (negative : Bool) {magnitude : Nat}
    (bounded : magnitude ≤ infinityWord) :
    isNegative (ofMagnitude negative magnitude) = negative := by
  rcases Nat.lt_or_eq_of_le bounded with finite | rfl
  · have seen := view_ofMagnitude negative finite
    simp only [view] at seen
    split at seen
    next => exact (View.finite.inj seen).1
    next => split at seen <;> contradiction
  · cases negative <;> rfl

theorem lt_infinityWord_of_view {x : Float} {negative : Bool} {magnitude : Nat}
    (seen : view x = .finite negative magnitude) : magnitude < infinityWord := by
  simp only [view] at seen
  split at seen
  next finite =>
    injection seen with _ same
    rwa [← same]
  next => split at seen <;> contradiction

/-- A finite number has no bits beside its sign and its magnitude. -/
theorem ofMagnitude_of_view {x : Float} {negative : Bool} {magnitude : Nat}
    (seen : view x = .finite negative magnitude) : ofMagnitude negative magnitude = x := by
  have finite := lt_infinityWord_of_view seen
  have power : twoPow 63 = 2 ^ 63 := rfl
  have bound : x.toBits.toNat < 2 ^ 64 := x.toBits.toNat_lt
  have bits : x.toBits.toNat = word negative magnitude := by
    simp only [view, power] at seen
    split at seen
    next =>
      injection seen with sign same
      rw [← sign, ← same, word]
      simp only [decide_eq_true_eq]
      split <;> omega
    next => split at seen <;> contradiction
  have same : UInt64.ofNat (if negative then twoPow 63 + magnitude else magnitude) = x.toBits :=
    UInt64.toNat_inj.mp ((toNat_word negative finite).trans bits.symm)
  rw [ofMagnitude, same]
  refine ofBits_toBits ?_
  rw [bits]
  exact exponent_word_lt negative finite

/-! ## Rational numbers -/

/-- The number that a magnitude of a given sign stands for. -/
def signed (negative : Bool) (magnitude : Nat) : ℚ :=
  if negative then -size magnitude else size magnitude

/-- The rational number that a finite floating-point number is, and none for the others. -/
def toRat? (x : Float) : Option ℚ :=
  match view x with
  | .finite negative magnitude => some (signed negative magnitude)
  | _ => none

theorem toRat?_ofMagnitude (negative : Bool) {magnitude : Nat} (finite : magnitude < infinityWord) :
    toRat? (ofMagnitude negative magnitude) = some (signed negative magnitude) := by
  rw [toRat?, view_ofMagnitude negative finite]

theorem exists_ofMagnitude {x : Float} {value : ℚ} (finite : toRat? x = some value) :
    ∃ negative, ∃ magnitude < infinityWord, x = ofMagnitude negative magnitude ∧
      value = signed negative magnitude := by
  simp only [toRat?] at finite
  split at finite
  next negative magnitude seen =>
    exact ⟨negative, magnitude, lt_infinityWord_of_view seen, (ofMagnitude_of_view seen).symm,
      (Option.some.inj finite).symm⟩
  next => contradiction

theorem signed_zero (negative : Bool) : signed negative 0 = 0 := by
  cases negative <;> simp [signed, size_zero]

theorem abs_signed (negative : Bool) (magnitude : Nat) :
    |signed negative magnitude| = size magnitude := by
  cases negative <;> simp [signed, size_nonneg]

theorem abs_signed_sub_signed (negative : Bool) (left right : Nat) :
    |signed negative left - signed negative right| = |size left - size right| := by
  cases negative with
  | false => rfl
  | true =>
      change |-size left - -size right| = _
      rw [neg_sub_neg, abs_sub_comm]

end Binary64
end DeskCalculator
