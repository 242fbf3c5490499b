import InfixArith.Proofs.Printing.Unparse

/-!
# How deep an expression goes to the right

A descent leads from the root of an expression to one of its leaves (`Expr.Descent`).  Left operands
and factorials may follow each other without end, but a right operand is a phrase of a tighter rule
than the whole, until parentheses lead back to the loosest one.  So between two pairs of parentheses
a descent takes a right operand once at most for each of the three rules with binary operators
(`Derives.count_le_of_descent`), and the limit on the parentheses bounds the right operands and the
arguments of functions on every descent (`descent_of_valid`).  Both bounds are reached by one
expression, `1+1*1^sin(1+1*1^sin(…))` with 128 calls (`Expr.staircase`).
-/

namespace InfixArith

/-- A way from a node of an expression to one of its direct parts. -/
inductive Edge where
  /-- To the left operand of a binary operator. -/
  | left
  /-- To the right operand of a binary operator. -/
  | right
  /-- To what a factorial sign applies to. -/
  | factorial
  /-- To the argument of a function. -/
  | argument
deriving DecidableEq

/-- The edges lead from the root of the expression to one of its leaves. -/
inductive Expr.Descent : Expr → List Edge → Prop
  /-- A number is a leaf. -/
  | literal (text : String) : Descent (.literal text) []
  /-- The way goes on in the left operand. -/
  | left (op : BinaryOp) {l : Expr} (r : Expr) {es : List Edge} (h : Descent l es) :
      Descent (.binary op l r) (.left :: es)
  /-- The way goes on in the right operand. -/
  | right (op : BinaryOp) (l : Expr) {r : Expr} {es : List Edge} (h : Descent r es) :
      Descent (.binary op l r) (.right :: es)
  /-- The way goes on below a factorial sign. -/
  | factorial {e : Expr} {es : List Edge} (h : Descent e es) :
      Descent (.factorial e) (.factorial :: es)
  /-- The way goes on in the argument of a function. -/
  | argument (f : Func) {e : Expr} {es : List Edge} (h : Descent e es) :
      Descent (.call f e) (.argument :: es)

/-- How many right operands a descent takes in a phrase of the rule outside of all parentheses: one
for the rule and one for each tighter rule with binary operators. -/
def Rule.rightOperands : Rule → Nat
  | expression => 3
  | term => 2
  | factor => 1
  | power => 1
  | primary => 0

/-- The phrases of a sequence have at most as many right operands as the sequence. -/
theorem Rule.rightOperands_operand_le (r : Rule) : r.operand.rightOperands ≤ r.rightOperands := by
  cases r <;> decide

/-- The right operand of an operator has fewer right operands left than the whole. -/
theorem BinaryOp.rightOperands_operand_lt (op : BinaryOp) :
    op.rule.operand.rightOperands < op.rule.rightOperands := by
  cases op <;> decide

variable {r : Rule} {ts : List Token} {e : Expr} {es : List Edge} {k : Int}

/-- Each open parenthesis allows for three more right operands and for one more argument. -/
theorem Derives.count_le_of_descent (h : Derives r ts e) (hts : Token.NestsWithin k ts)
    (hes : e.Descent es) :
    (es.count .right : Int) ≤ 3 * k + r.rightOperands ∧ (es.count .argument : Int) ≤ k := by
  induction h generalizing k es with
  | number text =>
    have hk : 0 ≤ k := hts.nonneg
    cases hes
    simp only [List.count_nil]
    omega
  | group _ ih =>
    obtain ⟨hright, hargument⟩ := ih (Token.nestsWithin_parentheses.1 hts) hes
    simp only [Rule.rightOperands] at hright ⊢
    omega
  | call f _ ih =>
    cases hes with
    | argument _ hes =>
      obtain ⟨hright, hargument⟩ := ih (Token.nestsWithin_call.1 hts) hes
      simp only [Rule.rightOperands] at hright ⊢
      rw [List.count_cons_of_ne (by decide), List.count_cons_self]
      omega
  | @operand r _ _ _ _ ih =>
    obtain ⟨hright, hargument⟩ := ih hts hes
    have hrule : r.operand.rightOperands ≤ r.rightOperands := r.rightOperands_operand_le
    omega
  | factorial text _ ih =>
    cases hes with
    | factorial hes =>
      rw [List.count_cons_of_ne (by decide), List.count_cons_of_ne (by decide)]
      exact ih (Token.nestsWithin_append.1 hts).1 hes
  | @binary r op hop ts us e e' h _ ih ih' =>
    obtain ⟨hleft, hrest⟩ := Token.nestsWithin_append.1 hts
    cases hes with
    | left _ _ hes =>
      rw [List.count_cons_of_ne (by decide), List.count_cons_of_ne (by decide)]
      exact ih hleft hes
    | right _ _ hes =>
      -- The tokens before the right operand close what they open, so it has the room of the whole.
      have hroom : Token.NestsWithin k us := by
        have hus := (Token.nestsWithin_cons.1 hrest).2
        rwa [h.depth_eq_zero, Token.depth_operator_symbol, Int.sub_zero, Int.sub_zero] at hus
      obtain ⟨hright, hargument⟩ := ih' hroom hes
      have hrule : r.operand.rightOperands < r.rightOperands := hop ▸ op.rightOperands_operand_lt
      rw [List.count_cons_self, List.count_cons_of_ne (by decide)]
      omega

/-- On no way from the root of a valid expression to a leaf are there more than 387 right operands
or more than 128 arguments of functions. -/
theorem descent_of_valid (ts : List Token) (e : Expr) (es : List Edge)
    (h : (parse ts).verdict = .valid e) (hes : e.Descent es) :
    es.count .right ≤ 3 * 129 ∧ es.count .argument ≤ 128 := by
  obtain ⟨hderives, hwithin⟩ := verdict_parse_eq_valid_iff.1 h
  obtain ⟨hright, hargument⟩ := hderives.count_le_of_descent hwithin hes
  simp only [Rule.rightOperands, nestingLimit] at hright hargument
  omega

/-! ### The deepest expressions -/

/-- The expression `1+1*1^e`. -/
def Expr.climb (e : Expr) : Expr :=
  .binary .add (.literal "1")
    (.binary .multiply (.literal "1") (.binary .exponentiate (.literal "1") e))

/-- The primary `sin(1+1*1^sin(…))` with `n` calls. -/
def Expr.staircase : Nat → Expr
  | 0 => .literal "1"
  | n + 1 => .call .sin (staircase n).climb

/-- The edges to the innermost number of `staircase n`. -/
def stairs : Nat → List Edge
  | 0 => []
  | n + 1 => .argument :: .right :: .right :: .right :: stairs n

/-- In `1+1*1^e` the way leads three times to the right before it goes on in `e`. -/
theorem Expr.Descent.climb (h : e.Descent es) :
    e.climb.Descent (.right :: .right :: .right :: es) :=
  .right .add _ (.right .multiply _ (.right .exponentiate _ h))

/-- The stairs lead down the staircase. -/
theorem descent_staircase (n : Nat) : (Expr.staircase n).Descent (stairs n) := by
  induction n with
  | zero => exact .literal "1"
  | succ n ih => exact .argument .sin ih.climb

/-- Each stair has three right operands and one argument. -/
theorem count_stairs (n : Nat) :
    (stairs n).count .right = 3 * n ∧ (stairs n).count .argument = n := by
  induction n with
  | zero => exact ⟨rfl, rfl⟩
  | succ n ih =>
    simp [stairs, ih]
    omega

/-- The tokens before the primary open no parentheses. -/
theorem nestsWithin_unparse_climb :
    Token.NestsWithin k (e.climb.unparse .expression) ↔
      Token.NestsWithin k (e.unparse .primary) := by
  have htokens : e.climb.unparse .expression =
      [.number "1", .operator '+', .number "1", .operator '*', .number "1", .operator '^'] ++
        e.unparse .primary := rfl
  have hdepth : Token.depth [.number "1", .operator '+', .number "1", .operator '*', .number "1",
      .operator '^'] = 0 := by decide
  have hmax : Token.maxDepth [.number "1", .operator '+', .number "1", .operator '*', .number "1",
      .operator '^'] = 0 := by decide
  rw [htokens, Token.nestsWithin_append, hdepth, Int.sub_zero]
  refine and_iff_right_of_imp fun h => ?_
  rw [Token.nestsWithin_iff_maxDepth_le, hmax]
  exact h.nonneg

/-- The staircase with `n` calls nests within `n` levels. -/
theorem nestsWithin_staircase (n : Nat) :
    Token.NestsWithin n ((Expr.staircase n).unparse .primary) := by
  induction n with
  | zero => exact Token.nestsWithin_singleton.2 ⟨Int.le_refl 0, by decide⟩
  | succ n ih =>
    have hcall : (Expr.staircase (n + 1)).unparse .primary = .function Func.sin.name :: .opening ::
        ((Expr.staircase n).climb.unparse .expression ++ [.closing]) := rfl
    rw [hcall, Token.nestsWithin_call, nestsWithin_unparse_climb]
    exact ih.mono (by omega)

/-- On the way to the innermost number of `1+1*1^sin(1+1*1^sin(…))` with 128 calls there are 387
right operands and 128 arguments. -/
theorem descent_of_valid_staircase :
    (parse ((Expr.staircase 128).climb.unparse .expression)).verdict =
        .valid (Expr.staircase 128).climb ∧
      (Expr.staircase 128).climb.Descent (.right :: .right :: .right :: stairs 128) ∧
      (List.count Edge.right (.right :: .right :: .right :: stairs 128) = 387 ∧
        List.count Edge.argument (.right :: .right :: .right :: stairs 128) = 128) := by
  have hparse : (parse ((Expr.staircase 128).climb.unparse .expression)).verdict =
      .valid (Expr.staircase 128).climb :=
    verdict_parse_eq_valid_iff.2
      ⟨derives_unparse _ _, nestsWithin_unparse_climb.2 (nestsWithin_staircase 128)⟩
  have hdescent := (descent_staircase 128).climb
  obtain ⟨hright, hargument⟩ := descent_of_valid _ _ _ hparse hdescent
  obtain ⟨hrights, harguments⟩ := count_stairs 128
  refine ⟨hparse, hdescent, Nat.le_antisymm hright ?_, Nat.le_antisymm hargument ?_⟩
  · simp [hrights]
  · simp [harguments]

end InfixArith
