import DeskCalculator.Main
import DeskCalculator.Proofs.Display.Readback
import DeskCalculator.Proofs.Grammar.Headless
import DeskCalculator.Proofs.Grammar.Percent
import DeskCalculator.Proofs.Evaluation.LastOperand
import DeskCalculator.Proofs.Token.Composition
import DeskCalculator.Proofs.Evaluation.MissingOperand
import DeskCalculator.Proofs.Evaluation.Failures
import DeskCalculator.Proofs.Token.Runs
import DeskCalculator.Proofs.Token.Balance
import DeskCalculator.Proofs.Postfix.Parentheses
import DeskCalculator.Proofs.History.Recorded
import DeskCalculator.Proofs.Session.Reading
import DeskCalculator.Proofs.Batch.Independence
import DeskCalculator.Proofs.Session.Expressions
import DeskCalculator.Proofs.Session.Loading
import DeskCalculator.Proofs.Postfix.Groups
import DeskCalculator.Proofs.Display.Canonical
import DeskCalculator.Proofs.Postfix.Rearrangement
import DeskCalculator.Proofs.Display.Normalize
import DeskCalculator.Proofs.Numeric.Moderate
import DeskCalculator.Proofs.Token.Written
import DeskCalculator.Proofs.Evaluation.Shortage
import DeskCalculator.Proofs.Postfix.Precedence
import DeskCalculator.Proofs.History.Snapshots
