import InfixArith.Proofs.Grammar.TopLevel
import InfixArith.Proofs.Parsing.Substitution
import InfixArith.Proofs.Parsing.TrailingTokens
import InfixArith.Proofs.Steps.Replay

/-!
# How many tokens, nodes and steps there are

In the tokens of an expression each token has one job: a parenthesis groups, and every other token
is one node (`Derives.size_add_countP_isParenthesis`).  Numbers are the leaves and binary operators
the branchings, so there is one number more (`Derives.countP_isNumber`).

Each token that is taken writes down one step, but some write it late and the name of a function
writes none.  The steps that are late are those of the operators whose right operands are missing
(`State.waiting`); with them, a token adds exactly one (`Shift.length_steps`), which holds of a
reading that fails as well (`parse_counts`).
-/

namespace InfixArith

variable {asked r : Rule} {s s' : State} {t : Token} {ts : List Token} {e : Expr}
  {steps : List Step}

/-! ### Kinds of tokens -/

namespace Token

/-- Whether the token is a parenthesis. -/
def isParenthesis (t : Token) : Bool :=
  t.isOperator '(' || t.isOperator ')'

/-- Whether the token is one of the signs `+`, `-`, `*`, `/` and `^`. -/
def isBinaryOperator (t : Token) : Bool :=
  ['+', '-', '*', '/', '^'].any t.isOperator

/-- Whether the token is a function, whatever its name. -/
def isFunction (t : Token) : Bool :=
  decide (t.kind = .function)

/-- The token of a binary operator is counted as one. -/
theorem isBinaryOperator_symbol (op : BinaryOp) : (operator op.symbol).isBinaryOperator = true := by
  cases op <;> decide

/-- The token of a binary operator is not counted as a parenthesis. -/
theorem not_isParenthesis_symbol (op : BinaryOp) : ¬ (operator op.symbol).isParenthesis = true := by
  cases op <;> decide

end Token

/-! ### Tokens and nodes -/

/-- Every token of a phrase but the parentheses is one node of its expression. -/
theorem Derives.size_add_countP_isParenthesis (h : Derives r ts e) :
    e.size + ts.countP Token.isParenthesis = ts.length := by
  induction h with
  | number text => rfl
  | @group ts e _ ih =>
    have hopening : Token.opening.isParenthesis = true := by decide
    have hclosing : List.countP Token.isParenthesis [.closing] = 1 := by decide
    rw [List.countP_cons_of_pos hopening, List.countP_append, hclosing, List.length_cons,
      List.length_append, List.length_singleton, ← ih]
    omega
  | @call f ts e _ ih =>
    have hname : ¬ (Token.function f.name).isParenthesis = true := by cases f <;> decide
    have hopening : Token.opening.isParenthesis = true := by decide
    have hclosing : List.countP Token.isParenthesis [.closing] = 1 := by decide
    rw [List.countP_cons_of_neg hname, List.countP_cons_of_pos hopening, List.countP_append,
      hclosing, List.length_cons, List.length_cons, List.length_append, List.length_singleton, ← ih,
      Expr.size]
    omega
  | operand _ _ ih => exact ih
  | @factorial text ts e _ ih =>
    have hsign : List.countP Token.isParenthesis [⟨.factorial, text⟩] = 0 := rfl
    rw [List.countP_append, hsign, List.length_append, List.length_singleton, ← ih, Expr.size]
    omega
  | @binary r op _ ts us e e' _ _ ih ih' =>
    rw [List.countP_append, List.countP_cons_of_neg (Token.not_isParenthesis_symbol op),
      List.length_append, List.length_cons, ← ih, ← ih', Expr.size]
    omega

/-- A phrase has one number more than it has binary operators. -/
theorem Derives.countP_isNumber (h : Derives r ts e) :
    ts.countP Token.isNumber = ts.countP Token.isBinaryOperator + 1 := by
  induction h with
  | number text => rfl
  | @group ts e _ ih =>
    simp only [List.countP_cons, List.countP_append, List.countP_nil, ih]
    rfl
  | @call f ts e _ ih =>
    simp only [List.countP_cons, List.countP_append, List.countP_nil, ih]
    rfl
  | operand _ _ ih => exact ih
  | @factorial text ts e _ ih =>
    simp only [List.countP_cons, List.countP_append, List.countP_nil, ih]
    rfl
  | @binary r op _ ts us e e' _ _ ih ih' =>
    have hsign : ¬ (Token.operator op.symbol).isNumber = true := Bool.false_ne_true
    rw [List.countP_append, List.countP_append, List.countP_cons_of_neg hsign,
      List.countP_cons_of_pos (Token.isBinaryOperator_symbol op), ih, ih']
    omega

/-! ### Tokens and steps -/

/-- The steps that the operands at the position wait for. -/
def Position.waiting : Position → List Step
  | .operand power => power.steps
  | .callee _ power => power.steps
  | .operator _ _ => []

/-- The steps that the operands around an open parenthesis wait for. -/
def Frame.waiting (f : Frame) : List Step :=
  f.power.steps ++ (f.product.steps ++ f.sum.steps)

/-- The steps of the operators that have been read and whose right operands are not complete, the
innermost first. -/
def State.waiting (s : State) : List Step :=
  s.position.waiting ++ (s.totalSteps ++ s.frames.flatMap Frame.waiting)

/-- The steps that wait in a state are those of its position, of its product, of its sum and of the
levels around it. -/
theorem length_waiting (fs : List Frame) (sum : Pending .expression) (product : Pending .term)
    (position : Position) :
    (State.mk fs sum product position).waiting.length = position.waiting.length +
      (product.steps.length + sum.steps.length + (fs.flatMap Frame.waiting).length) := by
  simp only [State.waiting, State.totalSteps, List.length_append]

/-- Around a parenthesis that has just been opened everything waits that has waited before it. -/
theorem length_waiting_open (o : Opener) (fs : List Frame) (sum : Pending .expression)
    (product : Pending .term) (power : Pending .power) :
    (State.mk (⟨o, sum, product, power⟩ :: fs) none none (.operand none)).waiting.length =
      power.steps.length +
        (product.steps.length + sum.steps.length + (fs.flatMap Frame.waiting).length) := by
  simp only [length_waiting, Position.waiting, Frame.waiting, Pending.steps, List.flatMap_cons,
    List.length_append, List.length_nil]
  omega

/-- A token adds one to the steps that are written down or wait, unless it is a function. -/
theorem Shift.length_steps (h : Shift asked s t steps s') :
    steps.length + s'.waiting.length + [t].countP Token.isFunction = s.waiting.length + 1 := by
  cases h with
  | number text =>
    have htoken : [Token.number text].countP Token.isFunction = 0 := rfl
    simp only [htoken, length_waiting, Position.waiting, afterPrimary, List.length_cons,
      List.length_nil]
    omega
  | group =>
    have htoken : [Token.opening].countP Token.isFunction = 0 := rfl
    rw [htoken, length_waiting_open, length_waiting, Position.waiting, List.length_singleton]
    omega
  | name f =>
    have htoken : [Token.function f.name].countP Token.isFunction = 1 := rfl
    simp only [htoken, length_waiting, Position.waiting, List.length_nil]
    omega
  | call =>
    have htoken : [Token.opening].countP Token.isFunction = 0 := rfl
    rw [htoken, length_waiting_open, length_waiting, Position.waiting, List.length_singleton]
    omega
  | factorial text =>
    have htoken : [(⟨.factorial, text⟩ : Token)].countP Token.isFunction = 0 := rfl
    simp only [htoken, length_waiting, Position.waiting, List.length_singleton]
    omega
  | sum op =>
    have htoken : [Token.operator op.symbol].countP Token.isFunction = 0 := rfl
    simp only [htoken, length_waiting, Position.waiting, Pending.steps, List.length_append,
      List.length_singleton, List.length_nil]
    omega
  | product op =>
    have htoken : [Token.operator op.symbol].countP Token.isFunction = 0 := rfl
    simp only [htoken, length_waiting, Position.waiting, Pending.steps, List.length_singleton,
      List.length_nil]
    omega
  | power op =>
    have htoken : [Token.operator op.symbol].countP Token.isFunction = 0 := rfl
    simp only [htoken, length_waiting, Position.waiting, Pending.steps, List.length_singleton,
      List.length_nil]
    omega
  | close =>
    have htoken : [Token.closing].countP Token.isFunction = 0 := rfl
    simp only [htoken, length_waiting, Position.waiting, Frame.waiting, afterPrimary,
      List.flatMap_cons, List.length_append, List.length_cons, List.length_nil]
    omega

/-- The tokens that continue a state write down one step each, now or later, but for the names of
functions. -/
theorem Shifts.length_steps (h : Shifts asked s ts steps s') :
    steps.length + s'.waiting.length + ts.countP Token.isFunction =
      s.waiting.length + ts.length := by
  induction h with
  | nil s => simp
  | @cons s s₁ s' t ts steps steps' hshift _ ih =>
    have hfirst := hshift.length_steps
    rw [← List.singleton_append, List.countP_append, List.length_append, List.length_append,
      List.length_singleton]
    omega

/-- At the end of the tokens no more steps are written down than wait. -/
theorem length_finish_le (s : State) : s.finish.1.length ≤ s.waiting.length := by
  obtain ⟨fs, sum, product, position⟩ := s
  cases position with
  | operand power => exact Nat.zero_le _
  | callee f power => exact Nat.zero_le _
  | operator e powers =>
    rw [State.finish, stop_fst, State.waiting, List.length_append, List.length_append]
    exact Nat.le_trans (Nat.le_add_right _ _) (Nat.le_add_left _ _)

/-- Where the reading may end with an expression, all steps that wait are written down. -/
theorem finish_fst_of_valid (h : s.finish.2 = .valid e) : s.finish.1 = s.waiting := by
  obtain ⟨sum, product, e', powers, rfl, -⟩ := finish_eq_valid_iff.1 h
  rw [State.finish, stop_fst]
  exact (List.append_nil _).symm

/-! ### The steps of all tokens -/

/-- Valid tokens have one step each, functions apart, and one more for the verdict. -/
theorem length_steps_of_valid (h : (parse ts).verdict = .valid e) :
    (parse ts).steps.length + ts.countP Token.isFunction = ts.length + 1 := by
  obtain ⟨steps, s, htakes, hs⟩ := verdict_parse_eq_valid_iff_takes.1 h
  have hcount := htakes.shifts.length_steps
  have hstart : State.start.waiting.length = 0 := rfl
  rw [Derivation.length_steps, htakes.parse_eq, List.length_append, finish_fst_of_valid hs]
  omega

/-- Tokens never have more steps than one each and one for the verdict. -/
theorem length_steps_le (ts : List Token) : (parse ts).steps.length ≤ ts.length + 1 := by
  obtain ⟨q, steps, s, hq, hshifts, hend⟩ := exists_shifts_parse ts
  have hcount := hshifts.length_steps
  have hstart : State.start.waiting.length = 0 := rfl
  have hlength : q.length ≤ ts.length := hq.length_le
  have hfinish : s.finish.1.length ≤ s.waiting.length := length_finish_le s
  have htaken : (parse ts).taken.length ≤ steps.length + s.waiting.length := by
    rcases hend with hend | hend
    · rw [hend, List.length_append]
      omega
    · rw [hend]
      omega
  rw [Derivation.length_steps]
  omega

/-- All nodes of the expression of valid tokens are counted by the tokens. -/
theorem nodeCount_of_valid (h : (parse ts).verdict = .valid e) :
    e.nodeCount + ts.countP Token.isParenthesis = ts.length := by
  rw [Expr.nodeCount_eq_size]
  exact (verdict_parse_eq_valid_iff.1 h).1.size_add_countP_isParenthesis

/-- In valid tokens no beginning closes more parentheses than it opens or leaves more than 128 of
them open, and all of them are closed; there is one number more than binary operators; the nodes are
as many as the tokens without the parentheses, and the steps as many as the tokens without the
functions, and one more.  No list of tokens has more steps than it has tokens, and one. -/
theorem parse_counts :
    (∀ (ts : List Token) (e : Expr), (parse ts).verdict = .valid e →
      (∀ q, q <+: ts → 0 ≤ Token.depth q ∧ Token.depth q ≤ 128) ∧
        ts.count .opening = ts.count .closing ∧
        ts.countP Token.isNumber = ts.countP Token.isBinaryOperator + 1 ∧
        e.nodeCount + ts.countP Token.isParenthesis = ts.length ∧
        (parse ts).steps.length + ts.countP Token.isFunction = ts.length + 1) ∧
    ∀ ts : List Token, (parse ts).steps.length ≤ ts.length + 1 := by
  refine ⟨fun ts e h => ?_, length_steps_le⟩
  obtain ⟨hderives, hwithin⟩ := verdict_parse_eq_valid_iff.1 h
  have hdepth : Token.depth ts = 0 := hderives.depth_eq_zero
  refine ⟨fun q hq => ⟨hderives.opensFirst q hq, hwithin q hq⟩, ?_, hderives.countP_isNumber,
    nodeCount_of_valid h, length_steps_of_valid h⟩
  rw [Token.depth] at hdepth
  omega

/-- In `cos(1*2)+3!` there are three numbers and two binary operators; of the nine tokens all but
the two parentheses are nodes, and all but the function have steps, with one more for the
verdict. -/
theorem parse_counts_cosine :
    (parse [.function "cos", .opening, .number "1", .operator '*', .number "2", .closing,
        .operator '+', .number "3", .factorial]).verdict =
      .valid (.binary .add (.call .cos (.binary .multiply (.literal "1") (.literal "2")))
        (.factorial (.literal "3"))) ∧
    ([Token.function "cos", .opening] <+: [.function "cos", .opening, .number "1", .operator '*',
        .number "2", .closing, .operator '+', .number "3", .factorial] ∧
      0 ≤ Token.depth [.function "cos", .opening] ∧
      Token.depth [.function "cos", .opening] ≤ 128) ∧
    (Expr.binary .add (.call .cos (.binary .multiply (.literal "1") (.literal "2")))
      (.factorial (.literal "3"))).nodeCount = 7 ∧
    (parse [.function "cos", .opening, .number "1", .operator '*', .number "2", .closing,
        .operator '+', .number "3", .factorial]).steps.length = 9 := by
  have hparse : (parse [.function "cos", .opening, .number "1", .operator '*', .number "2",
      .closing, .operator '+', .number "3", .factorial]).verdict =
        .valid (.binary .add (.call .cos (.binary .multiply (.literal "1") (.literal "2")))
          (.factorial (.literal "3"))) := by
    rfl
  have hfirst : [Token.function "cos", .opening] <+: [.function "cos", .opening, .number "1",
      .operator '*', .number "2", .closing, .operator '+', .number "3", .factorial] :=
    List.prefix_append [Token.function "cos", .opening] _
  obtain ⟨hdepth, -, -, hnodes, hsteps⟩ := parse_counts.1 _ _ hparse
  exact ⟨hparse, ⟨hfirst, hdepth _ hfirst⟩, Nat.add_right_cancel (m := 2) hnodes,
    Nat.add_right_cancel (m := 1) hsteps⟩

end InfixArith
