import InfixArith.Expr.Basic
import InfixArith.Grammar.Rule
import InfixArith.Proofs.Grammar.Nesting

/-!
# What the grammar derives

`Derives r ts e` says that the tokens `ts` are a phrase of the rule `r` with the expression `e`.
The five rules are read as follows.  A phrase of a rule other than the last one is a sequence of
phrases of the next rule, `Rule.operand`; the sequence is taken together from the left, so all of it
but the last phrase is a phrase of the same rule again.  Parentheses leave no trace in the
expression unless they hold the argument of a function.  The operators of a rule are those whose
characters `Rule.operatorSymbols` lists (`BinaryOp.rule_eq_iff`).

Numbers and factorials are matched by their kind with any text, operators and functions by their
exact text.
-/

namespace InfixArith

/-- The rule of the phrases that a phrase of the rule is a sequence of. -/
def Rule.operand : Rule → Rule
  | expression => term
  | term => factor
  | factor => power
  | power => primary
  | primary => primary

/-- The characters that join the phrases of a sequence of the rule. -/
def Rule.operatorSymbols : Rule → List Char
  | expression => ['+', '-']
  | term => ['*', '/']
  | factor => []
  | power => ['^']
  | primary => []

/-- An operator belongs to the rule that lists its character, and to no other one. -/
theorem BinaryOp.rule_eq_iff (op : BinaryOp) (r : Rule) :
    op.rule = r ↔ op.symbol ∈ r.operatorSymbols := by
  cases op <;> cases r <;> decide

/-- Two rules with the same place are the same rule. -/
theorem Rule.eq_of_rank_eq {r r' : Rule} (h : r.rank = r'.rank) : r = r' := by
  revert h
  cases r <;> cases r' <;> decide

/-- The phrases of a sequence bind at least as tightly as the sequence. -/
theorem Rule.rank_le_rank_operand (r : Rule) : r.rank ≤ r.operand.rank := by
  cases r <;> decide

/-- Every rule but the tightest one is made of phrases of the next one. -/
theorem Rule.rank_operand_of_lt {r r' : Rule} (h : r.rank < r'.rank) :
    r ≠ .primary ∧ r.operand.rank = r.rank + 1 := by
  revert h
  cases r <;> cases r' <;> decide

/-- The tokens are a phrase of the rule, and the expression is what they stand for. -/
inductive Derives : Rule → List Token → Expr → Prop
  /-- A number is a primary. -/
  | number (text : String) : Derives .primary [.number text] (.literal text)
  /-- An expression in parentheses is a primary. -/
  | group {ts : List Token} {e : Expr} (h : Derives .expression ts e) :
      Derives .primary (.opening :: (ts ++ [.closing])) e
  /-- The name of a function with an expression in parentheses is a primary. -/
  | call (f : Func) {ts : List Token} {e : Expr} (h : Derives .expression ts e) :
      Derives .primary (.function f.name :: .opening :: (ts ++ [.closing])) (.call f e)
  /-- A sequence may be of one phrase. -/
  | operand {r : Rule} {ts : List Token} {e : Expr} (hr : r ≠ .primary)
      (h : Derives r.operand ts e) : Derives r ts e
  /-- A factor goes on with a factorial sign. -/
  | factorial (text : String) {ts : List Token} {e : Expr} (h : Derives .factor ts e) :
      Derives .factor (ts ++ [⟨.factorial, text⟩]) (.factorial e)
  /-- The other sequences go on with one of the operators of the rule and one more phrase. -/
  | binary {r : Rule} (op : BinaryOp) (hop : op.rule = r) {ts us : List Token} {e e' : Expr}
      (h : Derives r ts e) (h' : Derives r.operand us e') :
      Derives r (ts ++ .operator op.symbol :: us) (.binary op e e')

namespace Derives

variable {r : Rule} {ts : List Token} {e : Expr}

/-- A phrase closes all the parentheses that it opens. -/
theorem depth_eq_zero (h : Derives r ts e) : Token.depth ts = 0 := by
  induction h with
  | number text => exact Token.depth_number text
  | group _ ih =>
    rw [Token.depth_cons, Token.depth_append, ih, Token.depth_opening, Token.depth_closing]
    rfl
  | call f _ ih =>
    rw [Token.depth_cons, Token.depth_cons .opening, Token.depth_append, ih, Token.depth_function,
      Token.depth_opening, Token.depth_closing]
    rfl
  | operand _ _ ih => exact ih
  | factorial text _ ih => rw [Token.depth_append, ih, Token.depth_factorial, Int.add_zero]
  | binary op _ _ _ ih ih' =>
    rw [Token.depth_append, Token.depth_cons, ih, ih', Token.depth_operator_symbol]
    rfl

/-- A phrase of a rule is a phrase of every looser rule. -/
theorem of_rank_le {r r' : Rule} {ts : List Token} {e : Expr} (h : Derives r' ts e)
    (hr : r.rank ≤ r'.rank) : Derives r ts e := by
  by_cases heq : r = r'
  · rw [heq]
    exact h
  · have hlt : r.rank < r'.rank := Nat.lt_of_le_of_ne hr fun h' => heq (Rule.eq_of_rank_eq h')
    obtain ⟨hprimary, hrank⟩ := Rule.rank_operand_of_lt hlt
    -- One sequence of a single phrase for each rule between the two.
    exact .operand hprimary (of_rank_le h (by omega))
termination_by r'.rank - r.rank

end Derives

end InfixArith
