import InfixArith.Expr.Basic
import InfixArith.Token.Basic

/-!
# Verdicts

The main definitions are `ParseError`, the causes for which a list of tokens is no expression, and
`Verdict`, which is either the expression that the tokens derive or the first error.
-/

namespace InfixArith

/-- Why a list of tokens is no expression. -/
inductive ParseError where
  /-- A parenthesized expression is not closed. -/
  | unmatchedParenthesis
  /-- The name of a function is not followed by an opening parenthesis. -/
  | functionWithoutParenthesis
  /-- The argument of a function is not closed. -/
  | unmatchedCallParenthesis
  /-- A token stands where a number, a parenthesis or a function is needed. -/
  | unexpectedToken (t : Token)
  /-- The tokens end where a number, a parenthesis or a function is needed. -/
  | unexpectedEnd
  /-- A complete expression is followed by a token that cannot continue it. -/
  | trailingTokens
  /-- More parentheses are open at once than the limit allows. -/
  | nestingTooDeep (limit : Nat)
deriving DecidableEq

/-- The error in words. -/
def ParseError.message : ParseError → String
  | unmatchedParenthesis => "Unmatched parenthesis"
  | functionWithoutParenthesis => "Function must be followed by parenthesis"
  | unmatchedCallParenthesis => "Unmatched parenthesis in function call"
  | unexpectedToken t => "Unexpected token: " ++ t.kind.label ++ " '" ++ t.text ++ "'"
  | unexpectedEnd => "Unexpected end of input"
  | trailingTokens => "Unexpected tokens at end of input"
  | nestingTooDeep limit => "Expression nests deeper than " ++ Nat.repr limit ++ " levels"

/-- The outcome of checking tokens against the grammar. -/
inductive Verdict where
  /-- The tokens derive the expression. -/
  | valid (e : Expr)
  /-- The tokens derive no expression. -/
  | invalid (error : ParseError)
deriving DecidableEq

namespace Verdict

/-- Whether there is an expression. -/
def isValid : Verdict → Bool
  | valid _ => true
  | invalid _ => false

/-- The derived expression, when there is one. -/
def expr? : Verdict → Option Expr
  | valid e => some e
  | invalid _ => none

/-- The error, when there is no expression. -/
def error? : Verdict → Option ParseError
  | valid _ => none
  | invalid error => some error

/-- A verdict is valid when it has an expression. -/
theorem isValid_iff {v : Verdict} : v.isValid = true ↔ ∃ e, v = .valid e := by
  cases v <;> simp [isValid]

/-- Only a valid verdict has an expression. -/
@[simp]
theorem expr?_eq_some_iff {v : Verdict} {e : Expr} : v.expr? = some e ↔ v = .valid e := by
  cases v <;> simp [expr?]

/-- Only an invalid verdict has an error. -/
@[simp]
theorem error?_eq_some_iff {v : Verdict} {error : ParseError} :
    v.error? = some error ↔ v = .invalid error := by
  cases v <;> simp [error?]

end Verdict

end InfixArith
