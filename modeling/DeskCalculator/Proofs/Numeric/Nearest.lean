import DeskCalculator.Proofs.Numeric.Magnitude
import DeskCalculator.Proofs.Numeric.Rounding

/-!
# Correct rounding

A rational number rounds to a magnitude word when the words below are exactly those that it passes:
it lies above the middle between such a word and its successor, or on the middle if the word is odd.
`Binary64.nearest` computes that word, cut off at infinity.
-/

namespace DeskCalculator
namespace Binary64

/-- A number lies beyond the middle between a word and its successor, the middle included if the
word is odd. -/
def Passes (number : ℚ) (magnitude : Nat) : Prop :=
  size magnitude + size (magnitude + 1) < 2 * number ∨
    (size magnitude + size (magnitude + 1) = 2 * number ∧ magnitude % 2 = 1)

/-- A number rounds to a word if the words below it are exactly those that the number passes. -/
def RoundsTo (number : ℚ) (magnitude : Nat) : Prop :=
  ∀ lower, lower < magnitude ↔ Passes number lower

namespace Passes

variable {number larger : ℚ} {magnitude lower : Nat}

theorem le (passes : Passes number magnitude) :
    size magnitude + size (magnitude + 1) ≤ 2 * number := by
  rcases passes with less | ⟨same, -⟩
  · exact less.le
  · exact same.le

theorem le_of_not (stays : ¬ Passes number magnitude) :
    2 * number ≤ size magnitude + size (magnitude + 1) :=
  not_lt.mp (not_or.mp stays).1

theorem mono (passes : Passes number magnitude) (le : number ≤ larger) :
    Passes larger magnitude := by
  rcases passes with less | ⟨same, odd⟩
  · exact Or.inl (less.trans_le (by linarith))
  · rcases le.eq_or_lt with equal | less
    · exact Or.inr ⟨by rw [same, equal], odd⟩
    · exact Or.inl (by linarith)

theorem of_size_le (le : size (magnitude + 1) ≤ number) : Passes number magnitude :=
  Or.inl (by linarith [size_strictMono (Nat.lt_succ_self magnitude)])

theorem not_of_le_size (le : number ≤ size magnitude) : ¬ Passes number magnitude := by
  intro passes
  linarith [passes.le, size_strictMono (Nat.lt_succ_self magnitude)]

theorem of_lt (passes : Passes number magnitude) (less : lower < magnitude) :
    Passes number lower := by
  have front : size (lower + 1) ≤ size magnitude := size_strictMono.monotone less
  have behind : size magnitude < size (magnitude + 1) := size_strictMono (Nat.lt_succ_self _)
  have step : size lower < size (lower + 1) := size_strictMono (Nat.lt_succ_self _)
  exact Or.inl (by linarith [passes.le])

end Passes

namespace RoundsTo

variable {number left right : ℚ} {magnitude first second : Nat}

/-- It is enough to look at a word and the one in front of it. -/
theorem ofNeighbours (front : ∀ lower, lower + 1 = magnitude → Passes number lower)
    (stays : ¬ Passes number magnitude) : RoundsTo number magnitude := by
  intro lower
  constructor
  · intro less
    obtain ⟨last, rfl⟩ : ∃ last, last + 1 = magnitude := ⟨magnitude - 1, by omega⟩
    rcases (Nat.lt_succ_iff.mp less).eq_or_lt with rfl | inside
    · exact front _ rfl
    · exact (front last rfl).of_lt inside
  · intro passes
    by_contra beyond
    rcases (not_lt.mp beyond).eq_or_lt with rfl | less
    · exact stays passes
    · exact stays (passes.of_lt less)

theorem stays (rounds : RoundsTo number magnitude) : ¬ Passes number magnitude := fun passes =>
  lt_irrefl _ ((rounds magnitude).mpr passes)

theorem mono (to_first : RoundsTo left first) (to_second : RoundsTo right second)
    (le : left ≤ right) : first ≤ second := by
  by_contra beyond
  have passes : Passes left second := (to_first second).mp (not_le.mp beyond)
  exact to_second.stays (passes.mono le)

theorem unique (to_first : RoundsTo number first) (to_second : RoundsTo number second) :
    first = second :=
  Nat.le_antisymm (to_first.mono to_second le_rfl) (to_second.mono to_first le_rfl)

theorem ofBracket [Decidable (Passes number magnitude)] (above : size magnitude ≤ number)
    (below : number < size (magnitude + 1)) :
    RoundsTo number (if Passes number magnitude then magnitude + 1 else magnitude) := by
  split
  next passes =>
    refine ofNeighbours (fun lower same => ?_) (Passes.not_of_le_size below.le)
    obtain rfl := Nat.succ.inj same
    exact passes
  next stays =>
    refine ofNeighbours (fun lower same => Passes.of_size_le ?_) stays
    rw [same]
    exact above

theorem ofSize (magnitude : Nat) : RoundsTo (size magnitude) magnitude :=
  ofNeighbours (fun lower same => Passes.of_size_le (by rw [same])) (Passes.not_of_le_size le_rfl)

/-- A number rounds to a word if it is nearer to it than half the steps before and behind. -/
theorem ofNear (above : 2 * (number - size magnitude) < 2 ^ scale magnitude)
    (below : ∀ lower, lower + 1 = magnitude → 2 * (size magnitude - number) < 2 ^ scale lower) :
    RoundsTo number magnitude := by
  refine ofNeighbours (fun lower same => Or.inl ?_) fun passes => ?_
  · have step := below lower same
    rw [← same] at step
    linarith [size_succ lower]
  · linarith [passes.le, size_succ magnitude]

theorem abs_sub_size_le (rounds : RoundsTo number magnitude) (nonneg : 0 ≤ number) :
    2 * |number - size magnitude| ≤ 2 ^ scale magnitude := by
  rcases le_total (size magnitude) number with above | below
  · rw [abs_of_nonneg (sub_nonneg.mpr above)]
    linarith [Passes.le_of_not rounds.stays, size_succ magnitude]
  · rw [abs_of_nonpos (sub_nonpos.mpr below)]
    cases magnitude with
    | zero =>
        have positive : (0 : ℚ) < 2 ^ scale 0 := zpow_pos two_pos _
        linarith [size_zero]
    | succ lower =>
        have passes : Passes number lower := (rounds lower).mp (Nat.lt_succ_self lower)
        have step : (2 : ℚ) ^ scale lower ≤ 2 ^ scale (lower + 1) :=
          zpow_le_zpow_right₀ one_le_two (scale_mono (Nat.le_succ lower))
        linarith [passes.le, size_succ lower]

/-- Numbers that round to different words lie as far apart as half the words do, unless one word is
the successor of the other. -/
theorem size_sub_le (to_first : RoundsTo left first) (to_second : RoundsTo right second)
    (less : first < second) :
    size second = size first + 2 ^ scale first ∨ size second - size first ≤ 2 * (right - left) := by
  rcases Nat.eq_or_lt_of_le (Nat.succ_le_of_lt less) with rfl | apart
  · exact Or.inl (size_succ first)
  · right
    obtain ⟨last, rfl⟩ : ∃ last, last + 1 = second := ⟨second - 1, by omega⟩
    have between : size (first + 1) ≤ size last :=
      size_strictMono.monotone (Nat.le_of_lt_succ apart)
    have passes : Passes right last := (to_second last).mp (Nat.lt_succ_self last)
    linarith [passes.le, Passes.le_of_not to_first.stays]

end RoundsTo

/-- At the place where `nearest` cuts a quotient, the units in it are no more than a magnitude has
digits for, and enough for a full count unless the place is the least one. -/
private theorem bounds_of_place {number : ℚ} {exponent place : ℤ} (least : 2 ^ exponent ≤ number)
    (bound : number < 2 ^ (exponent + 1)) (place_eq : place = max (exponent - 52) (-1074)) :
    number / 2 ^ place < 2 ^ 53 ∧ ((place + 1074).toNat = 0 ∨ 2 ^ 52 ≤ number / 2 ^ place) := by
  have unit_pos : (0 : ℚ) < 2 ^ place := zpow_pos two_pos _
  constructor
  · rw [div_lt_iff₀ unit_pos]
    refine bound.trans_le ?_
    rw [← zpow_natCast, ← zpow_add₀ two_ne_zero]
    exact zpow_le_zpow_right₀ one_le_two (by push_cast; omega)
  · rcases le_or_gt (exponent - 52) (-1074) with low | high
    · exact Or.inl (by omega)
    · right
      rw [le_div_iff₀ unit_pos, ← zpow_natCast, ← zpow_add₀ two_ne_zero]
      refine le_trans (zpow_le_zpow_right₀ one_le_two ?_) least
      push_cast
      omega

private theorem passes_iff {magnitude place count : Nat} (placed : Placed magnitude place count)
    (quotient : ℚ) :
    Passes (quotient * 2 ^ (place - 1074 : ℤ)) magnitude ↔
      2 * (count : ℚ) + 1 < 2 * quotient ∨
        (2 * (count : ℚ) + 1 = 2 * quotient ∧ count % 2 = 1) := by
  have unit_pos : (0 : ℚ) < 2 ^ (place - 1074 : ℤ) := zpow_pos two_pos _
  have middle : size magnitude + size (magnitude + 1) =
      (2 * count + 1) * 2 ^ (place - 1074 : ℤ) := by
    rw [placed.size_eq, placed.size_succ_eq]
    ring
  have parity : magnitude % 2 = count % 2 := by
    have word := placed.word
    omega
  rw [Passes, middle, parity, ← mul_assoc, mul_lt_mul_iff_left₀ unit_pos,
    mul_left_inj' unit_pos.ne']

private theorem roundsTo_place {number : ℚ} {place dividend divisor : Nat} (positive : 0 < divisor)
    (quotient : (dividend / divisor : ℚ) = number / 2 ^ (place - 1074 : ℤ))
    (short : number / 2 ^ (place - 1074 : ℤ) < 2 ^ 53)
    (full : place = 0 ∨ 2 ^ 52 ≤ number / 2 ^ (place - 1074 : ℤ)) :
    RoundsTo number (place * 2 ^ 52 + Rounding.halfEven dividend divisor) := by
  classical
  have unit_pos : (0 : ℚ) < 2 ^ (place - 1074 : ℤ) := zpow_pos two_pos _
  have positive' : (0 : ℚ) < divisor := by exact_mod_cast positive
  obtain ⟨above, below⟩ := Rounding.div_bounds dividend positive
  have placed : Placed (place * 2 ^ 52 + dividend / divisor) place (dividend / divisor) := by
    refine ⟨rfl, full.imp_right fun least => ?_, ?_⟩
    · rw [← quotient, le_div_iff₀ positive'] at least
      exact (Nat.le_div_iff_mul_le positive).mpr (by exact_mod_cast least)
    · rw [← quotient, div_lt_iff₀ positive'] at short
      exact (Nat.div_lt_iff_lt_mul positive).mpr (by exact_mod_cast short)
  have number_eq : number = dividend / divisor * 2 ^ (place - 1074 : ℤ) := by
    rw [quotient, div_mul_cancel₀ _ unit_pos.ne']
  have reaches : size (place * 2 ^ 52 + dividend / divisor) ≤ number := by
    rw [placed.size_eq, number_eq]
    gcongr
  have stays_below : number < size (place * 2 ^ 52 + dividend / divisor + 1) := by
    rw [placed.size_succ_eq, number_eq]
    gcongr
  have bracket := RoundsTo.ofBracket reaches stays_below
  simp only [number_eq, passes_iff placed] at bracket
  rw [Rounding.halfEven_eq_ite _ positive, number_eq]
  split
  next up => rwa [if_pos up, Nat.add_assoc] at bracket
  next down => rwa [if_neg down] at bracket

/-- The word of a quotient is the one that it rounds to, or that of infinity if it lies behind. -/
theorem nearest_roundsTo (numerator : Nat) {denominator : Nat} (positive : 0 < denominator) :
    ∃ magnitude, RoundsTo (numerator / denominator) magnitude ∧
      nearest numerator denominator = min magnitude infinityWord := by
  rcases Nat.eq_zero_or_pos numerator with rfl | numerator_pos
  · refine ⟨0, ?_, by simp [nearest]⟩
    rw [Nat.cast_zero, zero_div, ← size_zero]
    exact RoundsTo.ofSize 0
  · obtain ⟨least, bound⟩ := Rounding.zpow_binaryExponent numerator numerator_pos positive
    simp only [nearest, if_neg numerator_pos.ne']
    set place : ℤ := max (Rounding.binaryExponent numerator denominator - 52) (-1074) with place_eq
    obtain ⟨short, full⟩ := bounds_of_place least bound place_eq
    have counted : (((place + 1074).toNat : ℤ) - 1074) = place := by omega
    refine ⟨_, roundsTo_place (Nat.mul_pos positive (twoPow_pos _)) ?_ ?_ ?_, rfl⟩
    · rw [counted, ← twoPow_toNat_div place]
      push_cast
      rw [div_div_eq_mul_div, div_mul_eq_mul_div, div_div]
    · rwa [counted]
    · rwa [counted]

end Binary64
end DeskCalculator
