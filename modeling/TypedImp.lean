import TypedImp.Main
import TypedImp.Proofs.Grammar.Combinators
import TypedImp.Proofs.Grammar.Expression
import TypedImp.Proofs.Grammar.ExpressionReading
import TypedImp.Proofs.Grammar.Program
import TypedImp.Proofs.Grammar.DeclarationReading
import TypedImp.Proofs.Grammar.StatementReading
import TypedImp.Proofs.Program.Nodes
import TypedImp.Proofs.Token.Order
import TypedImp.Proofs.Typing.WellTyped
import TypedImp.Proofs.Specialization.Elaboration
import TypedImp.Proofs.Grammar.ProgramReading
import TypedImp.Proofs.Compilation
import TypedImp.Proofs.Grammar.Spans
import TypedImp.Proofs.Specialization.Erasure
import TypedImp.Proofs.Evaluation.Keeps
import TypedImp.Proofs.Evaluation.Preservation
import TypedImp.Proofs.Evaluation.Lockstep
import TypedImp.Proofs.Evaluation.FuelComparison
import TypedImp.Proofs.Evaluation.LessDefined
import TypedImp.Proofs.Evaluation.Reentry
import TypedImp.Proofs.Evaluation.Soundness
import TypedImp.Proofs.Soundness
import TypedImp.Proofs.Evaluation.Following
import TypedImp.Proofs.Evaluation.Reference
import TypedImp.Proofs.Specialization.Conversions
import TypedImp.Proofs.Specialization.Meaning
import TypedImp.Proofs.Typing.Rules
import TypedImp.Proofs.Specialization.Explicit
import TypedImp.Proofs.Token.TokenText
import TypedImp.Proofs.Token.Trivia
import TypedImp.Proofs.Token.MaximalMunch
import TypedImp.Proofs.Token.Scanning
import TypedImp.Proofs.Token.Tiling
import TypedImp.Proofs.Evaluation.Across
import TypedImp.Proofs.Evaluation.MainEntry
import TypedImp.Proofs.Evaluation.Frames
import TypedImp.Proofs.Typing.ExplicitTypes
import TypedImp.Proofs.Typing.Narrowing
import TypedImp.Proofs.Specialization.Narrowing
import TypedImp.Proofs.Alignment.Basic
import TypedImp.Proofs.Alignment.Reading
import TypedImp.Proofs.Alignment.ProgramReading
import TypedImp.Proofs.Alignment.Checking
import TypedImp.Proofs.Alignment.Specializing
import TypedImp.Proofs.Alignment.Evaluating
import TypedImp.Proofs.Alignment.Layout
import TypedImp.Proofs.Program.Reordering
import TypedImp.Proofs.Evaluation.Monotonicity
import TypedImp.Proofs.Evaluation.Callers
import TypedImp.Proofs.Evaluation.Recursion
import TypedImp.Proofs.Evaluation.CallLog
import TypedImp.Proofs.Evaluation.Halting
import TypedImp.Proofs.Token.Spacing
import TypedImp.Proofs.Grammar.ReadingBack
import TypedImp.Proofs.Grammar.Prediction
import TypedImp.Proofs.Grammar.ExpressionPrediction
import TypedImp.Proofs.Grammar.StatementPrediction
import TypedImp.Proofs.Grammar.ProgramPrediction
import TypedImp.Proofs.Grammar.Passing
import TypedImp.Proofs.Grammar.ProgramPassing
import TypedImp.Proofs.Grammar.WrongToken
import TypedImp.Proofs.Typing.Agreement
import TypedImp.Proofs.Token.Joining
import TypedImp.Proofs.Grammar.Clashes
import TypedImp.Proofs.Program.Merging
import TypedImp.Proofs.Source.Lines
import TypedImp.Proofs.Source.Regions
import TypedImp.Proofs.Token.Results
import TypedImp.Proofs.Program.Names
import TypedImp.Proofs.Grammar.Naming
import TypedImp.Proofs.Typing.Naming
import TypedImp.Proofs.Messages
import TypedImp.Proofs.Alignment.Compiling
import TypedImp.Proofs.Failures
import TypedImp.Proofs.Diagnostic
import TypedImp.Proofs.Evaluation.IntegerArithmetic
import TypedImp.Proofs.Specialization.Account
import TypedImp.Proofs.Grammar.SpanNesting
import TypedImp.Proofs.Text.Cutting
import TypedImp.Proofs.Text.Outlines
import TypedImp.Proofs.Binary32.Intervals
import TypedImp.Proofs.Binary32.Unpacking
import TypedImp.Proofs.Binary32.Writing
import TypedImp.Proofs.Program.Printing
import TypedImp.Proofs.Program.Registries
import TypedImp.Proofs.Source.Positions
import TypedImp.Proofs.Text.Bytes
import TypedImp.Proofs.NameMap.Histories
import TypedImp.Proofs.Grammar.Leading
import TypedImp.Proofs.Grammar.Progress
