import RangeCalc.Highlight
import RangeCalc.Loop.Jobs
import RangeCalc.Main
import RangeCalc.Session
import RangeCalc.Proofs.Session.Lifecycle
import RangeCalc.Proofs.Expr.RoundTrip
import RangeCalc.Proofs.Run.Cut
import RangeCalc.Proofs.Session.Delivery
import RangeCalc.Proofs.Token.Pattern
import RangeCalc.Proofs.Token.Rules
import RangeCalc.Proofs.Token.Partition
import RangeCalc.Proofs.Loop.Drain
import RangeCalc.Proofs.Loop.Lineup
import RangeCalc.Proofs.Loop.Record
import RangeCalc.Proofs.Loop.Timeline
import RangeCalc.Proofs.Loop.Interruption
import RangeCalc.Proofs.Run.Interruption
import RangeCalc.Proofs.Program.Concatenation
import RangeCalc.Proofs.Loop.Desk
import RangeCalc.Proofs.Run.Concatenation
import RangeCalc.Proofs.Number.Integral
import RangeCalc.Proofs.Eval.Watched
import RangeCalc.Proofs.Eval.Invariant
import RangeCalc.Proofs.Run.Invariant
import RangeCalc.Loop.Shared
import RangeCalc.Prompt.Printer
import RangeCalc.Proofs.Loop.Shared
import RangeCalc.Proofs.Prompt.Printer
import RangeCalc.Proofs.Prompt.Agreement
import RangeCalc.Proofs.Eval.Operands
import RangeCalc.Proofs.Eval.Mapping
import RangeCalc.Proofs.Eval.Reduction
import RangeCalc.Proofs.Prompt.Independence
import RangeCalc.Proofs.Eval.Locality
import RangeCalc.Proofs.Eval.Renaming
import RangeCalc.Proofs.Run.Scoping
import RangeCalc.Proofs.Program.Finality
import RangeCalc.Proofs.Program.Depth
import RangeCalc.Proofs.Scope.History
import RangeCalc.Proofs.Highlight.Document
import RangeCalc.Proofs.Settings
import RangeCalc.Proofs.Program.Outline
import RangeCalc.Proofs.Number.Nearest
import RangeCalc.Proofs.Eval.Range
