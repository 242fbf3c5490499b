import InfixArith.Derivation.Verdict
import InfixArith.Grammar.Rule

/-!
# Derivation steps

A step says which rule of the grammar was recognized and what was found by it; the last step of a
derivation tells its verdict.  The main definitions are `Stage`, `Step` and `Step.line`, the step in
words.
-/

namespace InfixArith

/-- The rule that a step belongs to, or the outcome that it tells. -/
inductive Stage where
  /-- A rule was recognized. -/
  | rule (r : Rule)
  /-- The tokens derive an expression. -/
  | complete
  /-- The tokens derive no expression. -/
  | error
deriving DecidableEq

namespace Stage

/-- The stage in words. -/
def label : Stage → String
  | rule r => r.label
  | complete => "Analysis complete"
  | error => "Error"

/-- The stage with a description of what happened at it. -/
def line (s : Stage) (description : String) : String :=
  s.label ++ ": " ++ description

end Stage

/-- One step of a derivation. -/
inductive Step where
  /-- A number was found. -/
  | literal (text : String)
  /-- A parenthesis opens a group. -/
  | opened
  /-- A parenthesis closes a group. -/
  | closed
  /-- The name of a function and the parenthesis after it open an argument. -/
  | entered (f : Func)
  /-- A parenthesis closes an argument. -/
  | completedCall (f : Func)
  /-- Both operands of the operator are complete. -/
  | joined (op : BinaryOp)
  /-- A factorial sign stands after its operand. -/
  | factorial
  /-- All tokens together are an expression. -/
  | complete
  /-- The tokens are no expression. -/
  | failed (error : ParseError)
deriving DecidableEq

namespace Step

/-- The stage that the step belongs to. -/
def stage : Step → Stage
  | literal _ | opened | closed | entered _ | completedCall _ => .rule .primary
  | joined op => .rule op.rule
  | factorial => .rule .factor
  | complete => .complete
  | failed _ => .error

/-- The description of a step that joins two operands. -/
def joinedDescription : BinaryOp → String
  | .exponentiate => "Created power expression"
  | op => "Created binary expression with operator '" ++ String.singleton op.symbol ++ "'"

/-- What was found by the step. -/
def description : Step → String
  | literal text => "Found number literal '" ++ text ++ "'"
  | opened => "Found opening parenthesis, starting subexpression"
  | closed => "Found closing parenthesis, ending subexpression"
  | entered f => "Found function '" ++ f.name ++ "', parsing argument"
  | completedCall f => "Completed function '" ++ f.name ++ "' call"
  | joined op => joinedDescription op
  | factorial => "Created factorial expression"
  | complete => "Expression is valid"
  | failed error => error.message

/-- The step in words. -/
def line (s : Step) : String :=
  s.stage.line s.description

end Step

/-- The step that tells the verdict. -/
def Verdict.step : Verdict → Step
  | valid _ => .complete
  | invalid error => .failed error

end InfixArith
