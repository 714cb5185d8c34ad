import DeskCalculator.Display
import DeskCalculator.Proofs.Numeric.Bits
import DeskCalculator.Proofs.Numeric.FixedPlaces
import DeskCalculator.Proofs.Numeric.Shortest

/-!
# The units that the display counts

The display shows a magnitude as a count of units of its last place.  Below `2 ^ 26` the step
between magnitude words is smaller than a unit, so the word read back determines the count.  From `2
^ 26` on the count determines the magnitude itself.
-/

namespace DeskCalculator
namespace Display

open Binary64 (RoundsTo infinityWord scale size)

/-- How many units of its last place the display shows of a magnitude. -/
def units (magnitude : Nat) : Nat := FixedPlaces.round places (Decimal.shortest magnitude)

/-- The word of `2 ^ 26`, the first one followed by a step larger than a unit. -/
def coarseWord : Nat := 1049 * 2 ^ 52

theorem coarseWord_lt_infinityWord : coarseWord < infinityWord := by decide

theorem size_coarseWord : size coarseWord = 2 ^ 26 := by
  have placed : Binary64.Placed coarseWord 1048 (2 ^ 52) := ⟨rfl, Or.inr le_rfl, by decide⟩
  rw [placed.size_eq]
  norm_num

private theorem units_coarseWord : ((2 ^ 26 * 10 ^ 8 : ℕ) / 10 ^ 8 : ℚ) = size coarseWord := by
  rw [size_coarseWord]
  norm_num

theorem le_step {magnitude : Nat} (coarse : coarseWord ≤ magnitude) :
    1 / 2 ^ 26 ≤ (2 : ℚ) ^ scale magnitude := by
  have exponent : (-26 : ℤ) ≤ scale magnitude := Binary64.scale_mono coarse
  calc (1 / 2 ^ 26 : ℚ) = 2 ^ (-26 : ℤ) := by norm_num
    _ ≤ 2 ^ scale magnitude := zpow_le_zpow_right₀ one_le_two exponent

theorem step_le {magnitude : Nat} (fine : magnitude ≤ coarseWord) :
    (2 : ℚ) ^ scale magnitude ≤ 1 / 2 ^ 26 := by
  have exponent : scale magnitude ≤ -26 := Binary64.scale_mono fine
  calc (2 : ℚ) ^ scale magnitude ≤ 2 ^ (-26 : ℤ) := zpow_le_zpow_right₀ one_le_two exponent
    _ = 1 / 2 ^ 26 := by norm_num

theorem step_le_of_lt {magnitude : Nat} (fine : magnitude < coarseWord) :
    (2 : ℚ) ^ scale magnitude ≤ 1 / 2 ^ 27 := by
  have exponent : scale magnitude ≤ -27 := Binary64.scale_mono (Nat.le_sub_one_of_lt fine)
  calc (2 : ℚ) ^ scale magnitude ≤ 2 ^ (-27 : ℤ) := zpow_le_zpow_right₀ one_le_two exponent
    _ = 1 / 2 ^ 27 := by norm_num

private theorem roundsTo_units_of_exponent {magnitude : Nat} (finite : magnitude < infinityWord)
    (coarse : -8 ≤ (Decimal.shortest magnitude).exponent) :
    RoundsTo (units magnitude / 10 ^ 8) magnitude := by
  have exact : (units magnitude / 10 ^ 8 : ℚ) = (Decimal.shortest magnitude).toRat :=
    FixedPlaces.round_div_eq_toRat 8 coarse
  rw [exact]
  exact Decimal.roundsTo_shortest finite

/-! ## Large magnitudes -/

/-- From `2 ^ 26` on some multiple of a unit next to a magnitude rounds to it. -/
private theorem exists_roundsTo_of_coarse {magnitude : Nat} (coarse : coarseWord ≤ magnitude) :
    ∃ count : Nat, |(count / 10 ^ 8 : ℚ) - size magnitude| < 1 / 10 ^ 8 ∧
      RoundsTo (count / 10 ^ 8) magnitude := by
  rcases coarse.eq_or_lt with rfl | beyond
  · refine ⟨2 ^ 26 * 10 ^ 8, ?_, ?_⟩
    · rw [units_coarseWord, sub_self, abs_zero]
      norm_num
    · rw [units_coarseWord]
      exact RoundsTo.ofSize _
  · have near := FixedPlaces.abs_round_div_sub_le 8 (Decimal.ofMagnitude magnitude)
    rw [Decimal.toRat_ofMagnitude] at near
    obtain ⟨below, above⟩ := abs_le.mp near
    refine ⟨_, near.trans_lt (by norm_num), RoundsTo.ofNear ?_ fun lower same => ?_⟩
    · linarith [le_step coarse]
    · have behind : coarseWord ≤ lower := by omega
      linarith [le_step behind]

/-- From `2 ^ 26` on the units shown are read as the magnitude again. -/
theorem roundsTo_units {magnitude : Nat} (finite : magnitude < infinityWord)
    (coarse : coarseWord ≤ magnitude) : RoundsTo (units magnitude / 10 ^ 8) magnitude := by
  obtain ⟨count, near, rounds⟩ := exists_roundsTo_of_coarse coarse
  have large : 2 ^ 26 ≤ size magnitude := by
    rw [← size_coarseWord]
    exact Binary64.size_strictMono.monotone coarse
  refine roundsTo_units_of_exponent finite (Decimal.exponent_shortest finite ?_ rounds near)
  exact le_trans (by norm_num) large

/-! ## Small magnitudes -/

private theorem abs_sub_size_lt {magnitude count : Nat} (fine : magnitude ≤ coarseWord)
    (rounds : RoundsTo (count / 10 ^ 8) magnitude) :
    |(count / 10 ^ 8 : ℚ) - size magnitude| < 1 / 10 ^ 8 := by
  linarith [rounds.abs_sub_size_le (by positivity), step_le fine]

private theorem count_eq_of_abs_sub_lt {left right : Nat}
    (near : |(left / 10 ^ 8 : ℚ) - right / 10 ^ 8| < 1 / 10 ^ 8) : left = right := by
  obtain ⟨below, above⟩ := abs_lt.mp near
  have left_lt : (left : ℚ) < right + 1 := by linarith
  have right_lt : (right : ℚ) < left + 1 := by linarith
  have left_le : left < right + 1 := by exact_mod_cast left_lt
  have right_le : right < left + 1 := by exact_mod_cast right_lt
  omega

/-- Up to `2 ^ 26` no two multiples of a unit round to one word. -/
private theorem count_unique {magnitude left right : Nat} (fine : magnitude ≤ coarseWord)
    (from_left : RoundsTo (left / 10 ^ 8) magnitude)
    (from_right : RoundsTo (right / 10 ^ 8) magnitude) : left = right := by
  rcases fine.eq_or_lt with rfl | finer
  · -- The step behind the word is larger than a unit here, but the word itself is a multiple.
    have whole {count : Nat} (rounds : RoundsTo (count / 10 ^ 8) coarseWord) :
        count = 2 ^ 26 * 10 ^ 8 := by
      refine count_eq_of_abs_sub_lt ?_
      rw [units_coarseWord]
      exact abs_sub_size_lt le_rfl rounds
    rw [whole from_left, whole from_right]
  · refine count_eq_of_abs_sub_lt ?_
    have left_near := from_left.abs_sub_size_le (by positivity)
    have right_near := from_right.abs_sub_size_le (by positivity)
    have triangle := abs_sub_le (left / 10 ^ 8 : ℚ) (size magnitude) (right / 10 ^ 8)
    rw [abs_sub_comm (size magnitude)] at triangle
    linarith [step_le_of_lt finer]

/-- The one word below the unit that a single unit may be read as, and zero, are shown as they
should be. -/
private theorem units_magnitude_of_le_one {count : Nat} (small : count ≤ 1) :
    units (Decimal.magnitude ⟨count, -8⟩) = count := by
  rcases Nat.le_one_iff_eq_zero_or_eq_one.mp small with rfl | rfl
  · decide +kernel
  · decide +kernel

theorem units_eq_of_roundsTo {magnitude count : Nat} (fine : magnitude ≤ coarseWord)
    (rounds : RoundsTo (count / 10 ^ 8) magnitude) : units magnitude = count := by
  have finite : magnitude < infinityWord := fine.trans_lt coarseWord_lt_infinityWord
  have near := abs_sub_size_lt fine rounds
  rcases le_or_gt count 1 with small | several
  · have read : (⟨count, -8⟩ : Decimal).magnitude = magnitude := by
      refine Decimal.magnitude_eq_of_roundsTo finite ?_
      rw [Decimal.toRat, zpow_neg, ← div_eq_mul_inv]
      exact rounds
    rw [← read]
    exact units_magnitude_of_le_one small
  · have two_le : (2 : ℚ) ≤ count := by exact_mod_cast several
    have visible : 1 / 10 ^ 8 ≤ size magnitude := by linarith [(abs_lt.mp near).2]
    have coarse := Decimal.exponent_shortest finite visible rounds near
    exact count_unique fine (roundsTo_units_of_exponent finite coarse) rounds

private theorem abs_units_sub_le (magnitude : Nat) :
    |(units magnitude / 10 ^ 8 : ℚ) - (Decimal.shortest magnitude).toRat| ≤ 1 / 2 / 10 ^ 8 :=
  FixedPlaces.abs_round_div_sub_le 8 _

private theorem units_div_le {magnitude : Nat} (fine : magnitude < coarseWord) :
    (units magnitude / 10 ^ 8 : ℚ) ≤ size coarseWord := by
  have finite : magnitude < infinityWord := fine.trans coarseWord_lt_infinityWord
  have stays := Binary64.Passes.le_of_not (Decimal.roundsTo_shortest finite).stays
  have last : size magnitude ≤ size coarseWord := Binary64.size_strictMono.monotone fine.le
  have next : size (magnitude + 1) ≤ size coarseWord := Binary64.size_strictMono.monotone fine
  have near := (abs_le.mp (abs_units_sub_le magnitude)).2
  rw [size_coarseWord] at last next ⊢
  have less : (units magnitude : ℚ) < 2 ^ 26 * 10 ^ 8 + 1 := by linarith
  have le : units magnitude ≤ 2 ^ 26 * 10 ^ 8 := Nat.lt_succ_iff.mp (by exact_mod_cast less)
  rw [div_le_iff₀ (by positivity)]
  exact_mod_cast le

theorem abs_size_sub_le {magnitude read : Nat} (fine : magnitude < coarseWord)
    (rounds : RoundsTo (units magnitude / 10 ^ 8) read) :
    read ≤ coarseWord ∧ |size read - size magnitude| ≤ 1 / 10 ^ 8 := by
  have finite : magnitude < infinityWord := fine.trans coarseWord_lt_infinityWord
  have from_shortest := Decimal.roundsTo_shortest finite
  obtain ⟨below, above⟩ := abs_le.mp (abs_units_sub_le magnitude)
  refine ⟨rounds.mono (RoundsTo.ofSize coarseWord) (units_div_le fine), ?_⟩
  rcases Nat.lt_trichotomy magnitude read with less | rfl | greater
  · rw [abs_of_nonneg (sub_nonneg.mpr (Binary64.size_strictMono less).le)]
    rcases from_shortest.size_sub_le rounds less with step | apart
    · linarith [step_le_of_lt fine]
    · linarith
  · rw [sub_self, abs_zero]
    positivity
  · rw [abs_of_nonpos (sub_nonpos.mpr (Binary64.size_strictMono greater).le)]
    rcases rounds.size_sub_le from_shortest greater with step | apart
    · linarith [step_le_of_lt (greater.trans fine)]
    · linarith

/-! ## All magnitudes -/

/-- What is shown of a finite magnitude is read as a finite magnitude within a unit, of which the
same is shown, and from `2 ^ 26` on as the magnitude itself. -/
theorem exists_roundsTo_units {magnitude : Nat} (finite : magnitude < infinityWord) :
    ∃ read < infinityWord, RoundsTo (units magnitude / 10 ^ 8) read ∧
      |size read - size magnitude| ≤ 1 / 10 ^ 8 ∧ units read = units magnitude ∧
        (2 ^ 26 ≤ size magnitude → read = magnitude) := by
  rcases Nat.lt_or_ge magnitude coarseWord with fine | coarse
  · obtain ⟨read, rounds, -⟩ := Binary64.nearest_roundsTo (units magnitude) (tenPow_pos 8)
    rw [cast_tenPow] at rounds
    obtain ⟨fine_read, near⟩ := abs_size_sub_le fine rounds
    refine ⟨read, fine_read.trans_lt coarseWord_lt_infinityWord, rounds, near,
      units_eq_of_roundsTo fine_read rounds, fun large => ?_⟩
    rw [← size_coarseWord] at large
    exact absurd (Binary64.size_strictMono fine) (not_lt.mpr large)
  · refine ⟨magnitude, finite, roundsTo_units finite coarse, ?_, rfl, fun _ => rfl⟩
    rw [sub_self, abs_zero]
    positivity

/-! ## The number of digits -/

theorem size_infinityWord : size infinityWord = 2 ^ 1024 := by
  have placed : Binary64.Placed infinityWord 2046 (2 ^ 52) := ⟨rfl, Or.inr le_rfl, by decide⟩
  have exponent : ((2046 : ℕ) - 1074 : ℤ) = (972 : ℕ) := rfl
  rw [placed.size_eq, exponent, zpow_natCast, Nat.cast_pow, Nat.cast_two, ← pow_add]

/-- Up to 91 places no number is too large to be rounded to them: 309 digits stand in front of the
point of the largest one. -/
theorem round_shortest_lt {places magnitude : Nat} (room : places ≤ 91)
    (finite : magnitude < infinityWord) :
    FixedPlaces.round places (Decimal.shortest magnitude) < 10 ^ precision := by
  have stays := Binary64.Passes.le_of_not (Decimal.roundsTo_shortest finite).stays
  have last : size magnitude ≤ size infinityWord := Binary64.size_strictMono.monotone finite.le
  have next : size (magnitude + 1) ≤ size infinityWord := Binary64.size_strictMono.monotone finite
  have near := (abs_le.mp (FixedPlaces.abs_round_div_sub_le places (Decimal.shortest magnitude))).2
  have power_pos : (0 : ℚ) < 10 ^ places := by positivity
  have bounded : (FixedPlaces.round places (Decimal.shortest magnitude) / 10 ^ places : ℚ) ≤
      size infinityWord + 1 / 2 / 10 ^ places := by
    linarith
  rw [div_le_iff₀ power_pos, add_mul, div_mul_cancel₀ _ power_pos.ne'] at bounded
  have below : (FixedPlaces.round places (Decimal.shortest magnitude) : ℚ) <
      size infinityWord * 10 ^ places + 1 := by
    linarith
  rw [size_infinityWord] at below
  calc FixedPlaces.round places (Decimal.shortest magnitude)
      < 2 ^ 1024 * 10 ^ places + 1 := by exact_mod_cast below
    _ ≤ 2 ^ 1024 * 10 ^ 91 + 1 := by gcongr; decide
    _ < 10 ^ precision := by decide +kernel

theorem write?_eq_some {places : Nat} (room : places ≤ 91) (x : Float) :
    write? places x = some (write places x) := by
  rw [write?]
  split
  next negative magnitude seen =>
    have fits := round_shortest_lt room (Binary64.lt_infinityWord_of_view seen)
    rw [← tenPow_eq_pow] at fits
    exact if_pos fits
  next => rfl

theorem units_lt {magnitude : Nat} (finite : magnitude < infinityWord) :
    units magnitude < 10 ^ precision :=
  round_shortest_lt (by decide : 8 ≤ 91) finite

end Display
end DeskCalculator
