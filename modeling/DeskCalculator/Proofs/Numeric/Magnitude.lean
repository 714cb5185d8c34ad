import DeskCalculator.Numeric.Binary64
import Mathlib.Tactic

/-!
# Magnitude words as numbers

`Binary64.size` is the rational number that a magnitude word stands for: a count of units of some
place.  The next word is one unit more, so the sizes grow with the words and the step from one to
the next never shrinks.
-/

namespace DeskCalculator
namespace Binary64

/-- The number that a magnitude word stands for; the word of infinity continues the finite ones. -/
def size (magnitude : Nat) : ℚ := significand magnitude * 2 ^ scale magnitude

/-- A count of units, and the place of the unit, that make up a magnitude word.  Below the first
place that asks for a full count the unit is the least one. -/
structure Placed (magnitude place count : Nat) : Prop where
  /-- The place is counted into the word. -/
  word : magnitude = place * 2 ^ 52 + count
  /-- The count is full unless the place is the least. -/
  full : place = 0 ∨ 2 ^ 52 ≤ count
  /-- The count has no more digits than a magnitude keeps. -/
  bounded : count < 2 ^ 53

theorem exists_placed (magnitude : Nat) : ∃ place count, Placed magnitude place count := by
  rcases Nat.lt_or_ge magnitude (2 ^ 52) with small | large
  · exact ⟨0, magnitude, by omega, Or.inl rfl, by omega⟩
  · exact ⟨magnitude / 2 ^ 52 - 1, 2 ^ 52 + magnitude % 2 ^ 52, by omega, Or.inr (by omega),
      by omega⟩

namespace Placed

variable {magnitude place count : Nat}

theorem significand_eq (placed : Placed magnitude place count) : significand magnitude = count := by
  obtain ⟨word, full, bounded⟩ := placed
  have power : twoPow 52 = 2 ^ 52 := rfl
  simp only [significand, power]
  split <;> omega

theorem scale_eq (placed : Placed magnitude place count) : scale magnitude = place - 1074 := by
  obtain ⟨word, full, bounded⟩ := placed
  have power : twoPow 52 = 2 ^ 52 := rfl
  simp only [scale, power]
  omega

theorem size_eq (placed : Placed magnitude place count) :
    size magnitude = count * 2 ^ (place - 1074 : ℤ) := by
  rw [size, placed.significand_eq, placed.scale_eq]

/-- The word behind another holds one unit more, also where the place changes. -/
theorem size_succ_eq (placed : Placed magnitude place count) :
    size (magnitude + 1) = (count + 1) * 2 ^ (place - 1074 : ℤ) := by
  rcases Nat.lt_or_ge (count + 1) (2 ^ 53) with inside | carries
  · have next : Placed (magnitude + 1) place (count + 1) :=
      ⟨by rw [placed.word, Nat.add_assoc], placed.full.imp_right Nat.le_succ_of_le, inside⟩
    rw [next.size_eq]
    push_cast
    rfl
  · have full : count + 1 = 2 ^ 53 := Nat.le_antisymm placed.bounded carries
    have next : Placed (magnitude + 1) (place + 1) (2 ^ 52) :=
      ⟨by rw [placed.word]; omega, Or.inr le_rfl, by omega⟩
    have double : ((count : ℚ) + 1) = 2 ^ 52 * 2 := by exact_mod_cast full
    rw [next.size_eq, double, mul_assoc, ← zpow_one_add₀ two_ne_zero]
    push_cast
    ring_nf

end Placed

theorem size_succ (magnitude : Nat) :
    size (magnitude + 1) = size magnitude + 2 ^ scale magnitude := by
  obtain ⟨place, count, placed⟩ := exists_placed magnitude
  rw [placed.size_succ_eq, placed.size_eq, placed.scale_eq]
  ring

theorem size_strictMono : StrictMono size :=
  strictMono_nat_of_lt_succ fun magnitude => by
    rw [size_succ]
    exact lt_add_of_pos_right _ (zpow_pos two_pos _)

theorem scale_mono : Monotone scale := fun left right le => by
  have divided : left / twoPow 52 ≤ right / twoPow 52 := Nat.div_le_div_right le
  simp only [scale]
  omega

theorem size_zero : size 0 = 0 := by
  simp [size, significand]

theorem size_nonneg (magnitude : Nat) : 0 ≤ size magnitude := by
  rw [← size_zero]
  exact size_strictMono.monotone (Nat.zero_le _)

end Binary64
end DeskCalculator
