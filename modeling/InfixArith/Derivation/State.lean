import InfixArith.Derivation.Step
import InfixArith.Token.Terminal

/-!
# The state of a derivation

Tokens are read one at a time.  Between two tokens, what is known of the tokens so far is a stack of
open parentheses, and at each level at most one left operand that waits for its right operand under
each of the three rules with binary operators.  The main definitions are `Pending`, `Opener`,
`Frame`, `Position` and `State`, the transition `State.next`, and `State.finish` for the end of the
tokens.

An operand is joined to the one that waits for it as soon as the next token shows that it is
complete, so operators of one rule group from the left, and the steps are written down in the order
in which the expression is built.
-/

namespace InfixArith

/-- The number of parentheses, those of function calls included, that may be open at once. -/
def nestingLimit : Nat := 128

/-- A left operand and its operator, waiting for the right operand. -/
structure LeftOperand (r : Rule) where
  /-- The left operand. -/
  value : Expr
  /-- The operator. -/
  op : BinaryOp
  /-- The operator belongs to the rule. -/
  rule_eq : op.rule = r
deriving DecidableEq

/-- The left operand that waits at the rule, when one does. -/
abbrev Pending (r : Rule) : Type :=
  Option (LeftOperand r)

namespace Pending

variable {r : Rule}

/-- The operand together with the left operand that has waited for it. -/
def join : Pending r → Expr → Expr
  | none, e => e
  | some l, e => .binary l.op l.value e

/-- The steps that joining writes down. -/
def steps : Pending r → List Step
  | none => []
  | some l => [.joined l.op]

end Pending

/-- What an opening parenthesis opens. -/
inductive Opener where
  /-- A parenthesized expression. -/
  | group
  /-- The argument of a function. -/
  | call (f : Func)
deriving DecidableEq

namespace Opener

/-- The step at the opening parenthesis. -/
def enterStep : Opener → Step
  | group => .opened
  | call f => .entered f

/-- The step at the closing parenthesis. -/
def leaveStep : Opener → Step
  | group => .closed
  | call f => .completedCall f

/-- The expression for what stands between the parentheses; a group adds nothing to it. -/
def wrap : Opener → Expr → Expr
  | group, e => e
  | call f, e => .call f e

/-- The error when the closing parenthesis is missing. -/
def unclosed : Opener → ParseError
  | group => .unmatchedParenthesis
  | call _ => .unmatchedCallParenthesis

end Opener

/-- An open parenthesis and what waits for the expression that it opens. -/
structure Frame where
  /-- What the parenthesis opens. -/
  opener : Opener
  /-- The left operand of `+` or `-` around it. -/
  sum : Pending .expression
  /-- The left operand of `*` or `/` around it. -/
  product : Pending .term
  /-- The left operand of `^` around it. -/
  power : Pending .power
deriving DecidableEq

/-- What may stand next at the innermost level. -/
inductive Position where
  /-- A primary, and the left operand of `^` that waits for it. -/
  | operand (power : Pending .power)
  /-- The opening parenthesis after the name of a function. -/
  | callee (f : Func) (power : Pending .power)
  /-- An operator after a complete operand; `^` only if the operand does not end in a factorial. -/
  | operator (value : Expr) (powers : Bool)
deriving DecidableEq

/-- The position after a primary, which is joined to the left operand of `^` at once. -/
def afterPrimary (power : Pending .power) (e : Expr) : Position :=
  .operator (power.join e) true

/-- What is known of the tokens so far. -/
structure State where
  /-- The open parentheses, the innermost one first. -/
  frames : List Frame
  /-- The left operand of `+` or `-` at the innermost level. -/
  sum : Pending .expression
  /-- The left operand of `*` or `/` at the innermost level. -/
  product : Pending .term
  /-- What may stand next. -/
  position : Position
deriving DecidableEq

/-- What a token does. -/
inductive Move where
  /-- The token is taken, the steps are written down, and reading goes on in the next state. -/
  | shift (steps : List Step) (next : State)
  /-- The token is not taken; the steps are written down, and reading ends. -/
  | halt (steps : List Step) (verdict : Verdict)
deriving DecidableEq

namespace State

/-- Nothing is read yet. -/
def start : State :=
  ⟨[], none, none, .operand none⟩

/-- The rule that the tokens at the innermost level are read by: inside parentheses the first one,
outside the one that was asked for. -/
def ruleWithin (asked : Rule) (s : State) : Rule :=
  if s.frames.isEmpty then asked else .expression

/-- The whole expression at the innermost level, when `value` is its last operand. -/
def total (s : State) (value : Expr) : Expr :=
  s.sum.join (s.product.join value)

/-- The steps that complete the expression at the innermost level. -/
def totalSteps (s : State) : List Step :=
  s.product.steps ++ s.sum.steps

/-- Reading ends because nothing continues the operand. -/
def stop (s : State) (value : Expr) : List Step × Verdict :=
  match s.frames with
  | [] => (s.totalSteps, .valid (s.total value))
  | f :: _ => (s.totalSteps, .invalid f.opener.unclosed)

/-- The move of a token that does not continue the operand. -/
def halt (s : State) (value : Expr) : Move :=
  .halt (s.stop value).1 (s.stop value).2

/-- An opening parenthesis; `outer` parentheses are open around the state. -/
def openParenthesis (outer : Nat) (s : State) (power : Pending .power) (opener : Opener) : Move :=
  if outer + s.frames.length < nestingLimit then
    .shift [opener.enterStep]
      ⟨⟨opener, s.sum, s.product, power⟩ :: s.frames, none, none, .operand none⟩
  else
    .halt [opener.enterStep] (.invalid (.nestingTooDeep nestingLimit))

/-- A closing parenthesis after a complete operand. -/
def closeParenthesis (s : State) (value : Expr) : Move :=
  match s.frames with
  | [] => s.halt value
  | f :: fs =>
    .shift (s.totalSteps ++ f.opener.leaveStep :: f.power.steps)
      ⟨fs, f.sum, f.product, afterPrimary f.power (f.opener.wrap (s.total value))⟩

/-- A binary operator after a complete operand. -/
def binaryOperator (asked : Rule) (s : State) (value : Expr) (powers : Bool) (op : BinaryOp) :
    Move :=
  if (s.ruleWithin asked).admits op.rule then
    match hop : op.rule with
    | .expression =>
      .shift s.totalSteps ⟨s.frames, some ⟨s.total value, op, hop⟩, none, .operand none⟩
    | .term =>
      .shift s.product.steps
        ⟨s.frames, s.sum, some ⟨s.product.join value, op, hop⟩, .operand none⟩
    | .power =>
      if powers then .shift [] { s with position := .operand (some ⟨value, op, hop⟩) }
      else s.halt value
    | _ => s.halt value
  else
    s.halt value

/-! ### The moves of the binary operators -/

section

variable {asked : Rule} {s : State} {value : Expr} {powers : Bool} {op : BinaryOp}

/-- `+` and `-` complete everything at their level, which then waits for the next term. -/
theorem binaryOperator_of_expression (hop : op.rule = .expression)
    (hasked : (s.ruleWithin asked).admits .expression = true) :
    s.binaryOperator asked value powers op =
      .shift s.totalSteps ⟨s.frames, some ⟨s.total value, op, hop⟩, none, .operand none⟩ := by
  unfold binaryOperator
  rw [if_pos (by rw [hop, hasked])]
  split
  · rfl
  · next h => cases hop.symm.trans h
  · next h => cases hop.symm.trans h
  · next h _ _ => exact absurd hop h

/-- `*` and `/` complete the product at their level, which then waits for the next factor. -/
theorem binaryOperator_of_term (hop : op.rule = .term)
    (hasked : (s.ruleWithin asked).admits .term = true) :
    s.binaryOperator asked value powers op =
      .shift s.product.steps
        ⟨s.frames, s.sum, some ⟨s.product.join value, op, hop⟩, .operand none⟩ := by
  unfold binaryOperator
  rw [if_pos (by rw [hop, hasked])]
  split
  · next h => cases hop.symm.trans h
  · rfl
  · next h => cases hop.symm.trans h
  · next h _ => exact absurd hop h

/-- `^` continues an operand only if no factorial stands before it. -/
theorem binaryOperator_of_power (hop : op.rule = .power)
    (hasked : (s.ruleWithin asked).admits .power = true) :
    s.binaryOperator asked value powers op =
      if powers then .shift [] { s with position := .operand (some ⟨value, op, hop⟩) }
      else s.halt value := by
  unfold binaryOperator
  rw [if_pos (by rw [hop, hasked])]
  split
  · next h => cases hop.symm.trans h
  · next h => cases hop.symm.trans h
  · rfl
  · next h => exact absurd hop h

/-- An operator of a rule that is not admitted continues nothing. -/
theorem binaryOperator_of_not_admits (hasked : (s.ruleWithin asked).admits op.rule = false) :
    s.binaryOperator asked value powers op = s.halt value := by
  unfold binaryOperator
  rw [if_neg (by rw [hasked]; exact Bool.false_ne_true)]

end

/-- A factorial sign after a complete operand. -/
def factorialSign (asked : Rule) (s : State) (value : Expr) : Move :=
  if (s.ruleWithin asked).admits .factor then
    .shift [.factorial] { s with position := .operator (.factorial value) false }
  else
    s.halt value

/-- What the next token does, when the tokens outside all parentheses are read by the rule `asked`
and `outer` parentheses are open around them. -/
def next (asked : Rule) (outer : Nat) (s : State) (t : Token) : Move :=
  match s.position with
  | .operand power =>
    match t.terminal with
    | .number text =>
      .shift (.literal text :: power.steps)
        { s with position := afterPrimary power (.literal text) }
    | .opening => s.openParenthesis outer power .group
    | .function f => .shift [] { s with position := .callee f power }
    | _ => .halt [] (.invalid (.unexpectedToken t))
  | .callee f power =>
    match t.terminal with
    | .opening => s.openParenthesis outer power (.call f)
    | _ => .halt [] (.invalid .functionWithoutParenthesis)
  | .operator value powers =>
    match t.terminal with
    | .factorial => s.factorialSign asked value
    | .binary op => s.binaryOperator asked value powers op
    | .closing => s.closeParenthesis value
    | _ => s.halt value

/-- The steps and the verdict when the tokens end. -/
def finish (s : State) : List Step × Verdict :=
  match s.position with
  | .operand _ => ([], .invalid .unexpectedEnd)
  | .callee _ _ => ([], .invalid .functionWithoutParenthesis)
  | .operator value _ => s.stop value

end State

end InfixArith
