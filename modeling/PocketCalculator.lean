import PocketCalculator.Text.Letter
import PocketCalculator.Text.DecimalDigit
import PocketCalculator.Text.Blank
import PocketCalculator.Decimal.Shortest
import PocketCalculator.Expression.Evaluate
import PocketCalculator.Number.Plain
import PocketCalculator.Keypad.Script
import PocketCalculator.Editor.Snapshot
import PocketCalculator.Toml.Read
import PocketCalculator.History.Faulty
import PocketCalculator.Command.Program
import PocketCalculator.Host.Machine
import PocketCalculator.Editor.Press
import PocketCalculator.Main
import PocketCalculator.Proofs.Expression.Evaluation
import PocketCalculator.Proofs.Editor.Saving
import PocketCalculator.Proofs.Editor.Locale
import PocketCalculator.Proofs.Editor.Evaluable
import PocketCalculator.Proofs.Editor.Replay
import PocketCalculator.Proofs.History.Refinement
import PocketCalculator.Proofs.History.Writing
import PocketCalculator.Proofs.History.Contents
import PocketCalculator.Proofs.Command.Splitting
import PocketCalculator.Proofs.Command.Exit
import PocketCalculator.Proofs.Editor.Neighbours
import PocketCalculator.Proofs.Expression.Places
import PocketCalculator.Proofs.Expression.Viable
import PocketCalculator.Proofs.Expression.Bytewise
import PocketCalculator.Proofs.Editor.Multiplied
import PocketCalculator.Proofs.Editor.Entered
import PocketCalculator.Proofs.Editor.Undone
import PocketCalculator.Proofs.Expression.Decided
import PocketCalculator.Proofs.Expression.Descent
import PocketCalculator.Proofs.Expression.Nesting
import PocketCalculator.Proofs.Editor.Replaced
import PocketCalculator.Proofs.Editor.Closed
import PocketCalculator.Proofs.Editor.Recovered
import PocketCalculator.Proofs.Number.Canonical
import PocketCalculator.Proofs.Editor.Copied
import PocketCalculator.Proofs.History.Inserting
import PocketCalculator.Proofs.Editor.Spelled
import PocketCalculator.Proofs.Formula.Stray
