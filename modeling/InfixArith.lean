import InfixArith.Main
import InfixArith.Proofs.Printing.Reprint
import InfixArith.Proofs.Printing.Unparse
import InfixArith.Proofs.Steps.Replay
import InfixArith.Proofs.Scanning.Pieces
import InfixArith.Proofs.Scanning.Spelling
import InfixArith.Proofs.Scanning.FirstError
import InfixArith.Proofs.Parsing.Completion
import InfixArith.Proofs.Parsing.NestingLimit
import InfixArith.Proofs.Parsing.Substitution
import InfixArith.Proofs.Parsing.Extension
import InfixArith.Proofs.Steps.Recovery
import InfixArith.Proofs.Printing.Merging
import InfixArith.Proofs.Reading.Refusal
import InfixArith.Proofs.Scanning.Spaces
import InfixArith.Proofs.Parsing.Stopping
import InfixArith.Proofs.Parsing.OperandErrors
import InfixArith.Proofs.Grammar.TopLevel
import InfixArith.Proofs.Parsing.Unclosed
import InfixArith.Proofs.Parsing.Root
import InfixArith.Proofs.Parsing.TrailingTokens
import InfixArith.Proofs.Reading.Shape
import InfixArith.Proofs.Parsing.Counts
import InfixArith.Proofs.Parsing.Joining
import InfixArith.Proofs.Parsing.Descent
import InfixArith.Proofs.Tree.Assembly
import InfixArith.Proofs.Tree.Projection
import InfixArith.Proofs.Text.Lines
import InfixArith.Proofs.Tree.Drawing
import InfixArith.Proofs.Expr.Walks
import InfixArith.Proofs.Expr.NodeCount
import InfixArith.Proofs.Log.Records
import InfixArith.Proofs.CommandLine.Output
import InfixArith.Proofs.Rules.Frame
import InfixArith.Proofs.Rules.Locality
import InfixArith.Proofs.Rules.Agreement
import InfixArith.Proofs.Rules.Contract
