import DeskCalculator.Proofs.Numeric.Bits
import DeskCalculator.Proofs.Numeric.Layout
import DeskCalculator.Proofs.Numeric.Shortest

/-!
# Moderate numbers

A number is moderate if it is zero or if its size is neither less than `10 ^ (-4)` nor as great as
`10 ^ 16`.  Rounding is monotonic, so its shortest decimal lies within the same bounds and is
written without an exponent.
-/

namespace DeskCalculator

/-! ## Digits and powers of ten -/

namespace Decimal

open Binary64 (RoundsTo infinityWord size)

/-- The number of digits of a decimal tells the power of ten that its number comes next to. -/
theorem toRat_bounds {d : Decimal} (nonzero : d.coefficient ≠ 0) :
    (10 : ℚ) ^ ((d.digits.length : ℤ) + d.exponent - 1) ≤ d.toRat ∧
      d.toRat < (10 : ℚ) ^ ((d.digits.length : ℤ) + d.exponent) := by
  obtain ⟨others, length⟩ : ∃ others, d.digits.length = others + 1 :=
    Nat.exists_eq_add_one.mpr (List.length_pos_of_ne_nil Nat.toDigits_ne_nil)
  have fits : d.coefficient < 10 ^ (others + 1) :=
    (Nat.length_toDigits_le_iff (by decide) (Nat.succ_pos others)).mp length.le
  have fills : 10 ^ others ≤ d.coefficient := by
    rcases others.eq_zero_or_pos with rfl | positive
    · exact Nat.pos_of_ne_zero nonzero
    · by_contra short
      have bounded := (Nat.length_toDigits_le_iff (by decide) positive).mpr (not_le.mp short)
      exact absurd (length.symm.trans_le bounded) (by omega)
  have power_pos : (0 : ℚ) < 10 ^ d.exponent := by positivity
  have least : ((others + 1 : ℕ) : ℤ) + d.exponent - 1 = others + d.exponent := by
    push_cast
    ring
  rw [length, least, toRat, zpow_add₀ (by norm_num), zpow_add₀ (by norm_num), zpow_natCast,
    zpow_natCast]
  constructor
  · exact mul_le_mul_of_nonneg_right (by exact_mod_cast fills) power_pos.le
  · exact mul_lt_mul_of_pos_right (by exact_mod_cast fits) power_pos

theorem point_bounds {d : Decimal} (nonzero : d.coefficient ≠ 0) (least : 1 / 10 ^ 4 ≤ d.toRat)
    (less : d.toRat < 10 ^ 16) :
    Layout.standard.leastPlain < (d.digits.length : ℤ) + d.exponent ∧
      (d.digits.length : ℤ) + d.exponent ≤ Layout.standard.firstScientific := by
  obtain ⟨reaches, stays⟩ := toRat_bounds nonzero
  have ten : (1 : ℚ) < 10 := by norm_num
  have above : (10 : ℚ) ^ (-4 : ℤ) < 10 ^ ((d.digits.length : ℤ) + d.exponent) := by
    refine lt_of_eq_of_lt ?_ (least.trans_lt stays)
    norm_num
  have below : (10 : ℚ) ^ ((d.digits.length : ℤ) + d.exponent - 1) < 10 ^ (16 : ℤ) :=
    reaches.trans_lt less
  have most := (zpow_lt_zpow_iff_right₀ ten).mp below
  exact ⟨(zpow_lt_zpow_iff_right₀ ten).mp above, Int.le_of_sub_one_lt most⟩

/-! ## Bounds of shortest decimals -/

theorem shortest_zero : shortest 0 = ⟨0, -1074⟩ := by decide +kernel

theorem toRat_shortest_lt {magnitude limit : Nat} (finite : magnitude < infinityWord)
    (less : size magnitude < size limit) : (shortest magnitude).toRat < size limit := by
  by_contra reaches
  have le : limit ≤ magnitude :=
    (RoundsTo.ofSize limit).mono (roundsTo_shortest finite) (not_lt.mp reaches)
  exact absurd (Binary64.size_strictMono.monotone le) (not_le.mpr less)

/-- A decimal that is the shortest of its word is no bound that a shortest decimal of another word
passes without the word itself. -/
theorem le_toRat_shortest {magnitude : Nat} {bound : Decimal} (finite : magnitude < infinityWord)
    (finite_bound : bound.magnitude < infinityWord) (short : shortest bound.magnitude = bound)
    (le : bound.toRat ≤ size magnitude) : bound.toRat ≤ (shortest magnitude).toRat := by
  by_contra passed
  have to_bound := roundsTo_magnitude finite_bound
  have above : bound.magnitude ≤ magnitude := to_bound.mono (RoundsTo.ofSize magnitude) le
  have below : magnitude ≤ bound.magnitude :=
    (roundsTo_shortest finite).mono to_bound (not_le.mp passed).le
  rw [Nat.le_antisymm below above, short] at passed
  exact passed le_rfl

end Decimal

namespace Binary64

/-- A number is zero, or neither very small nor very great. -/
def IsModerate (x : Float) : Prop :=
  ∃ value, toRat? x = some value ∧ (value = 0 ∨ 1 / 10 ^ 4 ≤ |value| ∧ |value| < 10 ^ 16)

theorem size_tenPow_sixteen : size 4846369599423283200 = 10 ^ 16 := by
  have placed : Placed 4846369599423283200 1075 (5 * 10 ^ 15) :=
    ⟨rfl, Or.inr (by norm_num), by norm_num⟩
  rw [placed.size_eq]
  norm_num

end Binary64

namespace Decimal

open Binary64 (infinityWord size)

theorem toRat_shortest_moderate {magnitude : Nat} (finite : magnitude < infinityWord)
    (least : 1 / 10 ^ 4 ≤ size magnitude) (less : size magnitude < 10 ^ 16) :
    1 / 10 ^ 4 ≤ (shortest magnitude).toRat ∧ (shortest magnitude).toRat < 10 ^ 16 := by
  have bound : (⟨1, -4⟩ : Decimal).toRat = 1 / 10 ^ 4 := by
    rw [toRat]
    norm_num
  rw [← Binary64.size_tenPow_sixteen] at less ⊢
  rw [← bound] at least ⊢
  exact ⟨le_toRat_shortest finite (by decide +kernel) (by decide +kernel) least,
    toRat_shortest_lt finite less⟩

end Decimal

/-! ## Plain digits -/

namespace Layout

open Lexeme (isNumeral)

theorem mem_plain {digits : List Char} {point : Int} {c : Char} (member : c ∈ plain digits point) :
    c = '0' ∨ c = '.' ∨ c ∈ digits := by
  rw [plain] at member
  split at member
  · simp only [List.mem_cons, List.mem_append, List.mem_replicate] at member
    tauto
  · rw [List.mem_append, List.mem_append, List.mem_cons] at member
    rcases member with (whole | zero) | rfl | fraction
    · exact Or.inr (Or.inr (List.mem_of_mem_take whole))
    · exact Or.inl (List.eq_of_mem_replicate zero)
    · exact Or.inr (Or.inl rfl)
    · split at fraction
      · exact Or.inl (List.mem_singleton.mp fraction)
      · exact Or.inr (Or.inr (List.mem_of_mem_drop fraction))

theorem isNumeral_of_mem_writeDecimal {layout : Layout} {d : Decimal}
    (plainly : d.coefficient ≠ 0 → layout.leastPlain < (d.digits.length : ℤ) + d.exponent ∧
      (d.digits.length : ℤ) + d.exponent ≤ layout.firstScientific) :
    ∀ c ∈ layout.writeDecimal d, isNumeral c := by
  intro c member
  rw [writeDecimal] at member
  split at member
  next => fin_cases member <;> rfl
  next nonzero =>
    rw [if_pos (plainly nonzero)] at member
    rcases mem_plain member with rfl | rfl | digit
    · rfl
    · rfl
    · have digit := FixedPlaces.isDigit_of_mem_toDigits (mem_of_mem_dropTrailingZeros digit)
      simp [isNumeral, digit]

end Layout

namespace Binary64

open Layout (standard)

/-- A moderate number is written with its sign and a run of digits and points, which reads back as
the number. -/
theorem IsModerate.exists_write {x : Float} (moderate : IsModerate x) :
    ∃ run d, (standard.write x).toList = Layout.sign (isNegative x) ++ run ∧
      (∀ c ∈ run, Lexeme.isNumeral c) ∧ Decimal.ofNumeral? run = some d ∧
      d.toFloat (isNegative x) = x := by
  obtain ⟨value, finite, bounds⟩ := moderate
  obtain ⟨negative, magnitude, bounded, rfl, rfl⟩ := exists_ofMagnitude finite
  rw [abs_signed] at bounds
  set d := Decimal.shortest magnitude with d_eq
  have rounds : RoundsTo d.toRat magnitude := Decimal.roundsTo_shortest bounded
  have plainly : d.coefficient ≠ 0 → standard.leastPlain < (d.digits.length : ℤ) + d.exponent ∧
      (d.digits.length : ℤ) + d.exponent ≤ standard.firstScientific := by
    intro nonzero
    rcases bounds with zero | ⟨least, less⟩
    · rw [← abs_eq_zero, abs_signed, ← size_zero] at zero
      rw [d_eq, size_strictMono.injective zero, Decimal.shortest_zero] at nonzero
      exact absurd rfl nonzero
    · obtain ⟨least, less⟩ := Decimal.toRat_shortest_moderate bounded least less
      exact Decimal.point_bounds nonzero least less
  have numerals := Layout.isNumeral_of_mem_writeDecimal plainly
  obtain ⟨read, reads, same⟩ := Layout.exists_readDecimal?_writeDecimal standard d
  rw [Layout.readDecimal?_of_isNumeral numerals] at reads
  rw [← same] at rounds
  refine ⟨standard.writeDecimal d, read, ?_, numerals, reads, ?_⟩
  · rw [isNegative_ofMagnitude negative bounded.le, Layout.write, view_ofMagnitude negative bounded]
    exact String.toList_ofList
  · rw [isNegative_ofMagnitude negative bounded.le, Decimal.toFloat,
      Decimal.magnitude_eq_of_roundsTo bounded rounds]

end Binary64
end DeskCalculator
