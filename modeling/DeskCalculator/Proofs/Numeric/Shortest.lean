import DeskCalculator.Numeric.Shortest
import DeskCalculator.Proofs.Numeric.Decimal

/-!
# Shortest decimals

The shortest decimal of a magnitude word rounds to the word.  When some decimal with a bounded
number of places does so too and lies next to the exact size, the search for the shortest one ends
no later than at that number of places.
-/

namespace DeskCalculator
namespace Decimal

open Binary64 (RoundsTo infinityWord size)

theorem magnitude_shortest {magnitude : Nat} (finite : magnitude < infinityWord) :
    (shortest magnitude).magnitude = magnitude :=
  magnitude_shortestFrom (magnitude_ofMagnitude finite) _

theorem roundsTo_shortest {magnitude : Nat} (finite : magnitude < infinityWord) :
    RoundsTo (shortest magnitude).toRat magnitude := by
  have reads_back := magnitude_shortest finite
  have bounded : (shortest magnitude).magnitude < infinityWord := by rwa [reads_back]
  have rounds := roundsTo_magnitude bounded
  rwa [reads_back] at rounds

theorem exponent_of_mem_neighbours {exact d : Decimal} {dropped : Nat}
    (member : d ∈ exact.neighbours dropped) : d.exponent = exact.exponent + dropped := by
  simp only [neighbours, List.mem_cons, List.not_mem_nil, or_false] at member
  rcases member with rfl | rfl
  · rfl
  · rfl

theorem mem_neighbours {exact : Decimal} {dropped count : Nat}
    (near : |(count : ℚ) - exact.coefficient / 10 ^ dropped| < 1) :
    ⟨count, exact.exponent + dropped⟩ ∈ exact.neighbours dropped := by
  rw [← cast_tenPow, abs_lt] at near
  obtain ⟨above, below⟩ := Rounding.div_bounds exact.coefficient (tenPow_pos dropped)
  have least : exact.coefficient / tenPow dropped < count + 1 := by
    have less : ((exact.coefficient / tenPow dropped : ℕ) : ℚ) < count + 1 := by linarith
    exact_mod_cast less
  have most : count < exact.coefficient / tenPow dropped + 2 := by
    have less : (count : ℚ) < (exact.coefficient / tenPow dropped : ℕ) + 2 := by linarith
    exact_mod_cast less
  simp only [neighbours, List.mem_cons, Decimal.mk.injEq, and_true, List.not_mem_nil, or_false]
  rcases Rounding.halfEven_eq_or exact.coefficient (tenPow dropped) with down | up
  · rw [down]
    omega
  · rw [up]
    omega

theorem exponent_le_shortestFrom (magnitude : Nat) (exact : Decimal) (dropped : Nat) :
    exact.exponent ≤ (shortestFrom magnitude exact dropped).exponent := by
  induction dropped with
  | zero => exact le_rfl
  | succ dropped induction =>
      simp only [shortestFrom]
      split
      next d found =>
        rw [exponent_of_mem_neighbours (List.mem_of_find?_eq_some found)]
        omega
      next => exact induction

/-- The search ends where a neighbour reads back, if not before. -/
theorem exponent_shortestFrom {magnitude : Nat} {exact d : Decimal} {enough dropped : Nat}
    (member : d ∈ exact.neighbours enough) (reads_back : d.magnitude = magnitude)
    (le : enough ≤ dropped) :
    exact.exponent + enough ≤ (shortestFrom magnitude exact dropped).exponent := by
  induction dropped with
  | zero =>
      obtain rfl := Nat.le_zero.mp le
      simp [shortestFrom]
  | succ dropped induction =>
      simp only [shortestFrom]
      split
      next found_d found =>
        rw [exponent_of_mem_neighbours (List.mem_of_find?_eq_some found)]
        omega
      next none =>
        refine induction (Nat.le_of_lt_succ (lt_of_le_of_ne le ?_))
        rintro rfl
        exact List.find?_eq_none.mp none d member (by simpa using reads_back)

/-- If a multiple of the last of some places lies next to the size of a word and is read as the
word, then the shortest decimal has no more than these places. -/
theorem exponent_shortest {magnitude places count : Nat} (finite : magnitude < infinityWord)
    (visible : 1 / 10 ^ places ≤ size magnitude)
    (rounds : RoundsTo (count / 10 ^ places) magnitude)
    (near : |(count / 10 ^ places : ℚ) - size magnitude| < 1 / 10 ^ places) :
    -(places : ℤ) ≤ (shortest magnitude).exponent := by
  set exact := ofMagnitude magnitude with exact_eq
  rcases le_or_gt (-(places : ℤ)) exact.exponent with coarse | fine
  · exact coarse.trans (exponent_le_shortestFrom _ _ _)
  · obtain ⟨dropped, split⟩ : ∃ dropped : Nat, exact.exponent + dropped = -(places : ℤ) :=
      ⟨(-(places : ℤ) - exact.exponent).toNat, by omega⟩
    have power_pos : (0 : ℚ) < 10 ^ places := by positivity
    have scaled : size magnitude = exact.coefficient / 10 ^ dropped / 10 ^ places := by
      rw [← toRat_ofMagnitude, toRat_eq_div_div split]
    rw [scaled, ← sub_div, abs_div, abs_of_pos power_pos,
      div_lt_div_iff_of_pos_right power_pos] at near
    rw [scaled, div_le_div_iff_of_pos_right power_pos] at visible
    have long : dropped ≤ exact.digits.length - 1 := by
      rw [le_div_iff₀ (by positivity), one_mul] at visible
      have large : 10 ^ dropped ≤ exact.coefficient := by exact_mod_cast visible
      have short := (Nat.length_toDigits_le_iff (b := 10) (n := exact.coefficient) (k := dropped)
        (by decide) (by omega)).not.mpr (not_lt.mpr large)
      rw [digits]
      omega
    have read : (⟨count, exact.exponent + dropped⟩ : Decimal).magnitude = magnitude := by
      refine magnitude_eq_of_roundsTo finite ?_
      rw [toRat, split, zpow_neg, zpow_natCast, ← div_eq_mul_inv]
      exact rounds
    rw [← split]
    exact exponent_shortestFrom (mem_neighbours near) read long

end Decimal
end DeskCalculator
