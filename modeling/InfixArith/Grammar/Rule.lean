import InfixArith.Expr.Operator

/-!
# The rules of the grammar

Five rules, from the loosest binding to the tightest one.  Each is a sequence of phrases of the next
rule, joined by its operators and grouped from the left; only a primary, by its parentheses, returns
to the first rule.  The main definitions are `Rule`, its order `Rule.rank`, the rule `BinaryOp.rule`
of an operator, and the reference text `grammarText`.
-/

namespace InfixArith

/-- A rule of the grammar. -/
inductive Rule where
  /-- Terms joined by `+` and `-`. -/
  | expression
  /-- Factors joined by `*` and `/`. -/
  | term
  /-- A power and the factorials after it. -/
  | factor
  /-- Primaries joined by `^`. -/
  | power
  /-- A number, a parenthesized expression or a function call. -/
  | primary
deriving DecidableEq

namespace Rule

/-- The place of the rule from the loosest binding to the tightest one. -/
def rank : Rule → Nat
  | expression => 0
  | term => 1
  | factor => 2
  | power => 3
  | primary => 4

/-- The name of the rule. -/
def label : Rule → String
  | expression => "Expression"
  | term => "Term"
  | factor => "Factor"
  | power => "Power"
  | primary => "Primary"

/-- Whether the operators of the rule `inner` join phrases inside a phrase of `outer` that is not
parenthesized. -/
def admits (outer inner : Rule) : Bool :=
  decide (outer.rank ≤ inner.rank)

/-- The operators of every rule join phrases inside an expression. -/
@[simp]
theorem expression_admits (r : Rule) : expression.admits r = true := by
  cases r <;> rfl

end Rule

/-- The rule whose phrases the operator joins. -/
def BinaryOp.rule : BinaryOp → Rule
  | .add | .subtract => .expression
  | .multiply | .divide => .term
  | .exponentiate => .power

/-- The lines of the rules as they are shown to a reader. -/
def grammarLines : List String :=
  ["expression := term    ((\"+\"|\"-\") term)*",
    "term       := factor  ((\"*\"|\"/\") factor)*",
    "factor     := power   (\"!\")*",
    "power      := primary (\"^\" primary)*",
    "primary    := NUMBER",
    "            | \"(\" expression \")\"",
    "            | FUNCTION \"(\" expression \")\""]

/-- The rules as they are shown to a reader, without a line end after the last one. -/
def grammarText : String :=
  "\n".intercalate grammarLines

end InfixArith
