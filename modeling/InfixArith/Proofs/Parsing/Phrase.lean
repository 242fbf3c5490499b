import InfixArith.Proofs.Parsing.Soundness

/-!
# Phrases

A `Phrase r` is a way to read tokens by the rule `r`, in the form of a tree.  Its tokens, its
expression and the steps that build the expression are read off the tree, so a change at one place
of a phrase shows at the same place in all three.  The phrases of a rule have exactly the tokens and
the expressions that the rule derives (`Phrase.derives`, `Derives.exists_phrase`).
-/

namespace InfixArith

/-- A phrase of a rule. -/
inductive Phrase : Rule → Type
  /-- A number is a primary. -/
  | number (text : String) : Phrase .primary
  /-- An expression in parentheses is a primary, and so is a function applied to one. -/
  | enclosed (o : Opener) (p : Phrase .expression) : Phrase .primary
  /-- A sequence may be of one phrase. -/
  | operand {r : Rule} (hr : r ≠ .primary) (p : Phrase r.operand) : Phrase r
  /-- A factor goes on with a factorial sign. -/
  | factorial (text : String) (p : Phrase .factor) : Phrase .factor
  /-- The other sequences go on with an operator of the rule and one more phrase. -/
  | binary {r : Rule} (op : BinaryOp) (hop : op.rule = r) (p : Phrase r) (p' : Phrase r.operand) :
      Phrase r

namespace Phrase

/-- The tokens of the phrase. -/
def tokens {r : Rule} : Phrase r → List Token
  | number text => [.number text]
  | enclosed o p => o.tokens ++ (p.tokens ++ [.closing])
  | operand _ p => p.tokens
  | factorial text p => p.tokens ++ [⟨.factorial, text⟩]
  | binary op _ p p' => p.tokens ++ .operator op.symbol :: p'.tokens

/-- The expression of the phrase. -/
def expr {r : Rule} : Phrase r → Expr
  | number text => .literal text
  | enclosed o p => o.wrap p.expr
  | operand _ p => p.expr
  | factorial _ p => .factorial p.expr
  | binary op _ p p' => .binary op p.expr p'.expr

/-- The steps that build the expression, each after those of its operands. -/
def steps {r : Rule} : Phrase r → List Step
  | number text => [.literal text]
  | enclosed o p => o.enterStep :: (p.steps ++ [o.leaveStep])
  | operand _ p => p.steps
  | factorial _ p => p.steps ++ [.factorial]
  | binary op _ p p' => p.steps ++ (p'.steps ++ [.joined op])

end Phrase

/-! ### Phrases and what is derived -/

/-- The tokens of a phrase derive its expression. -/
theorem Phrase.derives {r : Rule} (p : Phrase r) : Derives r p.tokens p.expr := by
  induction p with
  | number text => exact .number text
  | enclosed o p ih => exact o.derives_wrap ih
  | operand hr p ih => exact .operand hr ih
  | factorial text p ih => exact .factorial text ih
  | binary op hop p p' ih ih' => exact .binary op hop ih ih'

/-- Tokens that derive an expression are those of a phrase with it. -/
theorem Derives.exists_phrase {r : Rule} {ts : List Token} {e : Expr} (h : Derives r ts e) :
    ∃ p : Phrase r, p.tokens = ts ∧ p.expr = e := by
  induction h with
  | number text => exact ⟨.number text, rfl, rfl⟩
  | group _ ih =>
    obtain ⟨p, rfl, rfl⟩ := ih
    exact ⟨.enclosed .group p, rfl, rfl⟩
  | call f _ ih =>
    obtain ⟨p, rfl, rfl⟩ := ih
    exact ⟨.enclosed (.call f) p, rfl, rfl⟩
  | operand hr _ ih =>
    obtain ⟨p, rfl, rfl⟩ := ih
    exact ⟨.operand hr p, rfl, rfl⟩
  | factorial text _ ih =>
    obtain ⟨p, rfl, rfl⟩ := ih
    exact ⟨.factorial text p, rfl, rfl⟩
  | binary op hop _ _ ih ih' =>
    obtain ⟨p, rfl, rfl⟩ := ih
    obtain ⟨p', rfl, rfl⟩ := ih'
    exact ⟨.binary op hop p p', rfl, rfl⟩

end InfixArith
