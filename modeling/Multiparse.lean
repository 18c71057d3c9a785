import Multiparse.Arith.Calculator
import Multiparse.Arith.Console
import Multiparse.Arith.Evaluation
import Multiparse.Arith.Lexeme
import Multiparse.Arith.Lexer
import Multiparse.Arith.Semantics
import Multiparse.Decimal.Binary
import Multiparse.Decimal.Integer
import Multiparse.Decimal.Read
import Multiparse.Decimal.Shortest
import Multiparse.Diagnostic
import Multiparse.Event
import Multiparse.Fault
import Multiparse.Grammar.Basic
import Multiparse.Grammar.Derived
import Multiparse.Grammar.Lemmas
import Multiparse.Grammar.Limit
import Multiparse.Grammar.Run
import Multiparse.Inspect
import Multiparse.Machine
import Multiparse.Main
import Multiparse.Outcome
import Multiparse.Parser.Ahead
import Multiparse.Parser.Basic
import Multiparse.Parser.Chain
import Multiparse.Parser.Choice
import Multiparse.Parser.Deferred
import Multiparse.Parser.Gather
import Multiparse.Parser.Layer
import Multiparse.Parser.Repeat
import Multiparse.Parser.Report
import Multiparse.Parser.Watch
import Multiparse.Position
import Multiparse.Proofs.Accountable
import Multiparse.Proofs.Adequacy
import Multiparse.Proofs.Arith.Descent
import Multiparse.Proofs.Arith.Diagnosis
import Multiparse.Proofs.Arith.Grouped
import Multiparse.Proofs.Arith.InvalidNumber
import Multiparse.Proofs.Arith.Meaning
import Multiparse.Proofs.Arith.Numeral
import Multiparse.Proofs.Arith.Outlook
import Multiparse.Proofs.Arith.Phrase
import Multiparse.Proofs.Arith.Printed
import Multiparse.Proofs.Arith.Recognition
import Multiparse.Proofs.Arith.Rejection
import Multiparse.Proofs.Arith.Rendering
import Multiparse.Proofs.Arith.Report
import Multiparse.Proofs.Arith.Scanning
import Multiparse.Proofs.Arith.Settled
import Multiparse.Proofs.Arith.Verdict
import Multiparse.Proofs.Chain.Derivations
import Multiparse.Proofs.Chain.Left
import Multiparse.Proofs.Chain.Right
import Multiparse.Proofs.Choice.Branches
import Multiparse.Proofs.Choice.Flattening
import Multiparse.Proofs.Computed
import Multiparse.Proofs.Confinement
import Multiparse.Proofs.Consumption
import Multiparse.Proofs.Contract
import Multiparse.Proofs.Correspondence
import Multiparse.Proofs.Depth
import Multiparse.Proofs.Derivation
import Multiparse.Proofs.Ending
import Multiparse.Proofs.Exploration
import Multiparse.Proofs.Farthest
import Multiparse.Proofs.FarthestError
import Multiparse.Proofs.Foremost
import Multiparse.Proofs.Fragment
import Multiparse.Proofs.Gathering
import Multiparse.Proofs.Inclusion
import Multiparse.Proofs.Inside
import Multiparse.Proofs.Invocation
import Multiparse.Proofs.Mirror
import Multiparse.Proofs.Nesting
import Multiparse.Proofs.Pruning
import Multiparse.Proofs.Raised
import Multiparse.Proofs.Repetition.Levels
import Multiparse.Proofs.Repetition.LongestRun
import Multiparse.Proofs.Repetition.Proceeding
import Multiparse.Proofs.Repetition.Progress
import Multiparse.Proofs.Repetition.Queue
import Multiparse.Proofs.Repetition.Separated
import Multiparse.Proofs.Sequencing
import Multiparse.Proofs.Sequencing.Distribution
import Multiparse.Proofs.Sequencing.Folds
import Multiparse.Proofs.Session.Change
import Multiparse.Proofs.Session.Lifetime
import Multiparse.Proofs.Session.RuleCells
import Multiparse.Proofs.SingleChoice
import Multiparse.Proofs.SingleReading
import Multiparse.Proofs.Skipping
import Multiparse.Proofs.SuffixInvariance
import Multiparse.Proofs.WellFormed
import Multiparse.Proofs.WholeInput
import Multiparse.Proofs.Wording
import Multiparse.Residual
import Multiparse.Session.Basic
import Multiparse.Session.Cell
import Multiparse.Session.Operation
import Multiparse.Session.Slots
import Multiparse.Text.Blank
import Multiparse.Text.Lines
import Multiparse.Text.Quoted
import Multiparse.Text.Unprintable
import Multiparse.Token
import Multiparse.Value
import Multiparse.Word
