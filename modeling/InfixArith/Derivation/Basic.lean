import InfixArith.Derivation.State
import InfixArith.Expr.Projection

/-!
# Derivations

A list of tokens is checked against the grammar in one pass.  The main definitions are `run`, which
reads a phrase of any rule from any state and tells where it stopped, `Derivation`, and `parse`,
which asks for an expression that takes all tokens.  A derivation ends with exactly one step that
tells its verdict.
-/

namespace InfixArith

/-- How reading a phrase ended. -/
structure Outcome where
  /-- The phrase, or the error that ended it. -/
  verdict : Verdict
  /-- The tokens from the one that ended it. -/
  rest : List Token
  /-- The steps taken, those before the phrase included. -/
  steps : List Step
deriving DecidableEq

/-- Reads tokens from the state `s`, with the steps so far listed from the last one to the first,
until a token is not taken or none is left.  The tokens outside all parentheses are read by the rule
`asked`, and `outer` parentheses are open around them. -/
def run (asked : Rule) (outer : Nat) (s : State) (taken : List Step) : List Token → Outcome
  | [] => ⟨s.finish.2, [], taken.reverse ++ s.finish.1⟩
  | t :: ts =>
    match s.next asked outer t with
    | .shift steps s' => run asked outer s' (steps.reverse ++ taken) ts
    | .halt steps verdict => ⟨verdict, t :: ts, taken.reverse ++ steps⟩

/-- The steps before a phrase change nothing but the list that its own steps are added to. -/
theorem run_taken (asked : Rule) (outer : Nat) (s : State) (taken : List Step) (ts : List Token) :
    run asked outer s taken ts =
      { run asked outer s [] ts with
        steps := taken.reverse ++ (run asked outer s [] ts).steps } := by
  induction ts generalizing s taken with
  | nil => simp [run]
  | cons t ts ih =>
    simp only [run]
    split
    · next steps s' _ =>
      rw [ih s' (steps.reverse ++ taken), ih s' (steps.reverse ++ [])]
      simp
    · simp

/-- The verdict on all tokens: a phrase must leave none of them. -/
def Outcome.whole (o : Outcome) : Verdict :=
  match o.verdict, o.rest with
  | .valid _, _ :: _ => .invalid .trailingTokens
  | v, _ => v

/-- Everything that is known of a list of tokens once it has been checked. -/
structure Derivation where
  /-- The steps by which the rules were recognized. -/
  taken : List Step
  /-- The expression that the tokens derive, or the first error. -/
  verdict : Verdict
deriving DecidableEq

namespace Derivation

/-- All steps, the one that tells the verdict last. -/
def steps (d : Derivation) : List Step :=
  d.taken ++ [d.verdict.step]

/-- A derivation has one step more than the rules have taken. -/
theorem length_steps (d : Derivation) : d.steps.length = d.taken.length + 1 :=
  List.length_append

/-- The steps that the rules have taken are all but the last one. -/
theorem dropLast_steps (d : Derivation) : d.steps.dropLast = d.taken :=
  List.dropLast_concat

/-- The steps in words. -/
def lines (d : Derivation) : List String :=
  d.steps.map Step.line

/-- Whether the tokens derive an expression. -/
def isValid (d : Derivation) : Bool :=
  d.verdict.isValid

/-- The derived expression, when there is one. -/
def expr? (d : Derivation) : Option Expr :=
  d.verdict.expr?

/-- The first error, when there is one. -/
def error? (d : Derivation) : Option ParseError :=
  d.verdict.error?

/-- The tree of the derived expression, or the tree that is shown in its place. -/
def tree (d : Derivation) : Tree :=
  match d.verdict with
  | .valid e => e.toTree
  | .invalid _ => .error

end Derivation

/-- Checks whether the tokens together are an expression. -/
def parse (ts : List Token) : Derivation :=
  let outcome := run .expression 0 .start [] ts
  ⟨outcome.steps, outcome.whole⟩

/-- The derivation is what the run over all tokens leaves. -/
theorem parse_eq_run (ts : List Token) :
    parse ts = ⟨(run .expression 0 .start [] ts).steps, (run .expression 0 .start [] ts).whole⟩ :=
  rfl

end InfixArith
