import DeskCalculator.Calculation

/-!
# Batches

A batch calculates a list of expressions one after the other.  Blank ones leave no trace; each of
the others gives a line.
-/

namespace DeskCalculator

/-- What a batch comes to. -/
structure Batch where
  /-- A line for every expression that is not blank, in order. -/
  lines : List String
  /-- Whether every expression that is not blank has a value. -/
  succeeded : Bool
  /-- The history after the batch. -/
  history : History

namespace Batch

/-- Put the outcome of an expression in front of a batch. -/
def prepend : Option Outcome → Batch → Batch
  | none, batch => batch
  | some outcome, batch =>
      { batch with
        lines := outcome.text :: batch.lines
        succeeded := outcome.isSuccess && batch.succeeded }

/-- Calculate a list of expressions. -/
def run [Arithmetic] (history : History) : List String → Traced Batch
  | [] => return ⟨[], true, history⟩
  | expression :: rest => do
      let (outcome, history) ← Calculation.calculate history expression
      let batch ← run history rest
      return prepend outcome batch

/-- The status that tells the caller of a batch whether it succeeded. -/
def status (batch : Batch) : Nat := if batch.succeeded then 0 else 1

/-- What a batch prints. -/
def output (batch : Batch) : String := String.join (batch.lines.map (· ++ "\n"))

end Batch
end DeskCalculator
