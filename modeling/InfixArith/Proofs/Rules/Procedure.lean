import InfixArith.Log.Analysis
import InfixArith.Proofs.Grammar.Derives

/-!
# The rules as procedures

Each rule of the grammar is a procedure on a parser, which knows how many tokens it has read, how
many parentheses are open around it and which steps it has written down, and which logs each step
when it is written down.  A procedure looks at one token at a time, calls the procedures of its
parts and replies with an expression or with an error; it leaves the parser where it stopped, also
after an error.  The main definitions are `Parser`, `Procedure`, the parts that procedures are made
of, and `Rule.procedure`.

Sequences of operands are loops.  A loop makes no more rounds than there are tokens left, each round
taking one at least, so the number of rounds only says that it ends (`sequence_eq`, `signs_eq`).
-/

namespace InfixArith

/-- A parser between two tokens. -/
structure Parser where
  /-- The number of tokens that have been read. -/
  cursor : Nat
  /-- The number of parentheses that are open. -/
  nesting : Nat
  /-- The largest number of parentheses that have been open at once. -/
  deepest : Nat
  /-- The steps so far. -/
  steps : List Step
  /-- The log that the steps are added to. -/
  journal : Log
deriving DecidableEq

namespace Parser

/-- The next token, if there is one. -/
def peek (ts : List Token) (p : Parser) : Option Token :=
  ts[p.cursor]?

/-- One more token is read. -/
def advance (p : Parser) : Parser :=
  { p with cursor := p.cursor + 1 }

/-- One more step is written down and logged. -/
def log (p : Parser) (step : Step) : Parser :=
  { p with steps := p.steps ++ [step], journal := p.journal.add (.step step) }

/-- One more parenthesis is open. -/
def enter (p : Parser) : Parser :=
  { p with nesting := p.nesting + 1, deepest := max p.deepest (p.nesting + 1) }

/-- One parenthesis less is open. -/
def leave (p : Parser) : Parser :=
  { p with nesting := p.nesting - 1 }

end Parser

/-- What a procedure replies, and the parser as the procedure leaves it. -/
structure Reply where
  /-- The expression that was read, or the error that ended the procedure. -/
  verdict : Verdict
  /-- The parser afterwards. -/
  parser : Parser
deriving DecidableEq

/-- A procedure of the parser. -/
abbrev Procedure : Type :=
  Parser → Reply

/-- Goes on after an expression; an error is passed on. -/
def Reply.andThen (x : Reply) (next : Expr → Procedure) : Reply :=
  match x.verdict with
  | .valid e => next e x.parser
  | .invalid _ => x

/-- The binary operator of the rule that comes next, if one does. -/
def Parser.operator? (ts : List Token) (r : Rule) (p : Parser) : Option BinaryOp :=
  match (p.peek ts).map Token.terminal with
  | some (.binary op) => if op.rule = r then some op else none
  | _ => none

namespace Procedure

variable (ts : List Token)

/-- What follows the parenthesis of an opener: the expression and the closing parenthesis. -/
def enclosed (nested : Procedure) (o : Opener) : Procedure := fun p =>
  (nested (p.log o.enterStep)).andThen fun e q =>
    if q.peek ts = some .closing then ⟨.valid (o.wrap e), q.advance.log o.leaveStep⟩
    else ⟨.invalid o.unclosed, q⟩

/-- A number, a group or a call. -/
def primary (nested : Procedure) : Procedure := fun p =>
  match p.peek ts with
  | none => ⟨.invalid .unexpectedEnd, p⟩
  | some t =>
    match t.terminal with
    | .number text => ⟨.valid (.literal text), p.advance.log (.literal text)⟩
    | .opening => enclosed ts nested .group p.advance
    | .function f =>
      if p.advance.peek ts = some .opening then enclosed ts nested (.call f) p.advance.advance
      else ⟨.invalid .functionWithoutParenthesis, p.advance⟩
    | _ => ⟨.invalid (.unexpectedToken t), p.advance⟩

/-- Operators of the rule with their right operands, in so many rounds at most. -/
def sequence (r : Rule) (operand : Procedure) : Nat → Expr → Procedure
  | 0, e, p => ⟨.valid e, p⟩
  | rounds + 1, e, p =>
    match p.operator? ts r with
    | none => ⟨.valid e, p⟩
    | some op =>
      (operand p.advance).andThen fun e' q =>
        sequence r operand rounds (.binary op e e') (q.log (.joined op))

/-- Factorial signs, in so many rounds at most. -/
def signs : Nat → Expr → Procedure
  | 0, e, p => ⟨.valid e, p⟩
  | rounds + 1, e, p =>
    if (p.peek ts).any Token.isFactorial then
      signs rounds (.factorial e) (p.advance.log .factorial)
    else ⟨.valid e, p⟩

/-- Operands joined by the operators of the rule. -/
def joined (r : Rule) (operand : Procedure) : Procedure := fun p =>
  (operand p).andThen fun e q => sequence ts r operand (ts.length - q.cursor) e q

/-- An operand and the factorial signs after it. -/
def signed (operand : Procedure) : Procedure := fun p =>
  (operand p).andThen fun e q => signs ts (ts.length - q.cursor) e q

/-- The procedure of each rule, given the one for what stands in parentheses. -/
def ruleWith (nested : Procedure) : Rule → Procedure
  | .primary => primary ts nested
  | .power => joined ts .power (primary ts nested)
  | .factor => signed ts (joined ts .power (primary ts nested))
  | .term => joined ts .term (signed ts (joined ts .power (primary ts nested)))
  | .expression =>
    joined ts .expression (joined ts .term (signed ts (joined ts .power (primary ts nested))))

/-- An expression one level deeper, unless the limit is reached.  Each level takes one of the
`levels`, and with as many of them as the limit allows there is always one left. -/
def nested : Nat → Procedure
  | 0, p => ⟨.invalid (.nestingTooDeep nestingLimit), p⟩
  | levels + 1, p =>
    if p.nesting = nestingLimit then ⟨.invalid (.nestingTooDeep nestingLimit), p⟩
    else
      let x := ruleWith ts (nested levels) .expression p.enter
      ⟨x.verdict, x.parser.leave⟩

end Procedure

/-- The procedure of a rule. -/
def Rule.procedure (ts : List Token) (r : Rule) : Procedure :=
  Procedure.ruleWith ts (Procedure.nested ts nestingLimit) r

/-! ### Replies and loops -/

variable {ts : List Token} {p : Parser} {r : Rule} {e : Expr} {op : BinaryOp}

/-- After an expression the next procedure goes on. -/
theorem Reply.andThen_of_valid {x : Reply} {next : Expr → Procedure} (h : x.verdict = .valid e) :
    x.andThen next = next e x.parser := by
  rw [andThen, h]

/-- After an error no procedure goes on. -/
theorem Reply.andThen_of_invalid {x : Reply} {next : Expr → Procedure} {error : ParseError}
    (h : x.verdict = .invalid error) : x.andThen next = x := by
  rw [andThen, h]

/-- An operator of the rule comes next when the next token is the token of one. -/
theorem Parser.operator?_eq_some_iff :
    p.operator? ts r = some op ↔ p.peek ts = some (.operator op.symbol) ∧ op.rule = r := by
  unfold operator?
  cases hpeek : p.peek ts with
  | none => simp
  | some t =>
    rw [Option.map_some, Option.some_inj, ← Token.terminal_eq_binary_iff]
    split
    · next op' ht =>
      rw [Option.some_inj] at ht
      rw [ht]
      constructor
      · intro h
        obtain ⟨hrule, hop⟩ := Option.ite_none_right_eq_some.1 h
        obtain rfl := Option.some.inj hop
        exact ⟨rfl, hrule⟩
      · rintro ⟨hop, hrule⟩
        obtain rfl := Terminal.binary.inj hop
        exact if_pos hrule
    · next hne =>
      refine iff_of_false nofun ?_
      rintro ⟨ht, -⟩
      exact hne op (congrArg some ht)

/-- A parser that sees a token is before the end. -/
theorem Parser.lt_of_peek {t : Token} (h : p.peek ts = some t) : p.cursor < ts.length := by
  obtain ⟨hlt, -⟩ := List.getElem?_eq_some_iff.1 h
  exact hlt

/-- A parser at the end sees no token. -/
theorem Parser.peek_eq_none_of_le (h : ts.length ≤ p.cursor) : p.peek ts = none :=
  List.getElem?_eq_none h

namespace Procedure

/-- With a round for each token that is left, a loop goes on as long as there is an operator. -/
theorem sequence_eq {operand : Procedure} {rounds : Nat} (h : ts.length - p.cursor ≤ rounds) :
    sequence ts r operand rounds e p =
      match p.operator? ts r with
      | none => ⟨.valid e, p⟩
      | some op =>
        (operand p.advance).andThen fun e' q =>
          sequence ts r operand (rounds - 1) (.binary op e e') (q.log (.joined op)) := by
  cases rounds with
  | zero =>
    have hpeek : p.peek ts = none := Parser.peek_eq_none_of_le (by omega)
    have hnone : p.operator? ts r = none := by rw [Parser.operator?, hpeek]; rfl
    rw [sequence, hnone]
  | succ rounds => rfl

/-- With a round for each token that is left, the loop goes on as long as there is a factorial sign.
-/
theorem signs_eq {rounds : Nat} (h : ts.length - p.cursor ≤ rounds) :
    signs ts rounds e p =
      if (p.peek ts).any Token.isFactorial then
        signs ts (rounds - 1) (.factorial e) (p.advance.log .factorial)
      else ⟨.valid e, p⟩ := by
  cases rounds with
  | zero =>
    have hpeek : p.peek ts = none := Parser.peek_eq_none_of_le (by omega)
    rw [signs, hpeek]
    rfl
  | succ rounds => rfl

/-- What holds of primaries and is kept by sequences holds of all rules. -/
theorem ruleWith_induction {motive : Rule → Procedure → Prop} {nested : Procedure}
    (primary : motive .primary (primary ts nested))
    (joined : ∀ r operand, r ≠ .primary → r ≠ .factor → motive r.operand operand →
      motive r (joined ts r operand))
    (signed : ∀ operand, motive .power operand → motive .factor (signed ts operand)) (r : Rule) :
    motive r (ruleWith ts nested r) := by
  have hpower := joined .power _ (by decide) (by decide) primary
  have hfactor := signed _ hpower
  have hterm := joined .term _ (by decide) (by decide) hfactor
  cases r with
  | primary => exact primary
  | power => exact hpower
  | factor => exact hfactor
  | term => exact hterm
  | expression => exact joined .expression _ (by decide) (by decide) hterm

end Procedure

end InfixArith
