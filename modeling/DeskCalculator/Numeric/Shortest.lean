import DeskCalculator.Numeric.Decimal

/-!
# The shortest decimal that reads back

A finite magnitude is written with the fewest digits from which correct rounding recovers it, as
near to it as that length allows.  Of the decimals of one length only the two neighbours of the
exact value can be nearest, so each length asks two questions.
-/

namespace DeskCalculator
namespace Decimal

/-- The decimals with `dropped` fewer digits than `exact` on its two sides, the nearer one first. -/
def neighbours (exact : Decimal) (dropped : Nat) : List Decimal :=
  let unit := tenPow dropped
  let near := Rounding.halfEven exact.coefficient unit
  let far := 2 * (exact.coefficient / unit) + 1 - near
  [⟨near, exact.exponent + dropped⟩, ⟨far, exact.exponent + dropped⟩]

/-- Search from `dropped` digits fewer than the exact decimal down to none for a neighbour that
reads back; the exact decimal itself ends the search. -/
def shortestFrom (magnitude : Nat) (exact : Decimal) : Nat → Decimal
  | 0 => exact
  | dropped + 1 =>
      match (exact.neighbours (dropped + 1)).find? (·.magnitude == magnitude) with
      | some d => d
      | none => shortestFrom magnitude exact dropped

/-- The shortest decimal that rounds to a finite magnitude, and the nearest of its length. -/
def shortest (magnitude : Nat) : Decimal :=
  let exact := ofMagnitude magnitude
  shortestFrom magnitude exact (exact.digits.length - 1)

theorem magnitude_shortestFrom {magnitude : Nat} {exact : Decimal}
    (reads_back : exact.magnitude = magnitude) (dropped : Nat) :
    (shortestFrom magnitude exact dropped).magnitude = magnitude := by
  induction dropped with
  | zero => exact reads_back
  | succ dropped induction =>
      simp only [shortestFrom]
      split
      next d found => simpa using List.find?_some found
      next => exact induction

end Decimal
end DeskCalculator
