import InfixArith.Expr.Operator

/-!
# Arithmetic expressions

The main definitions are the expressions `Expr`, their labels and children, and the number of their
nodes, which is given twice: `Expr.size` follows the structure, and `Expr.nodeCount` works through a
list of pending nodes, so that it takes no more room on an expression that is nested deeply to the
left.  The lemma `Expr.Count.run_eq` ties the two together at every point of the count.
-/

namespace InfixArith

/-- An arithmetic expression.  Parentheses are not part of it. -/
inductive Expr where
  /-- A number, as it is written. -/
  | literal (text : String)
  /-- Two expressions joined by an operator. -/
  | binary (op : BinaryOp) (left right : Expr)
  /-- The factorial of an expression. -/
  | factorial (arg : Expr)
  /-- A function applied to an expression. -/
  | call (f : Func) (arg : Expr)
deriving DecidableEq

namespace Expr

/-- The direct parts of the expression, from left to right. -/
def children : Expr → List Expr
  | literal _ => []
  | binary _ left right => [left, right]
  | factorial arg => [arg]
  | call _ arg => [arg]

/-- The number, symbol or name at the root of the expression. -/
def label : Expr → String
  | literal text => text
  | binary op _ _ => String.singleton op.symbol
  | factorial _ => String.singleton factorialSymbol
  | call f _ => f.name

/-- The number of nodes of the expression. -/
def size : Expr → Nat
  | literal _ => 1
  | binary _ left right => left.size + right.size + 1
  | factorial arg => arg.size + 1
  | call _ arg => arg.size + 1

/-- The number of nodes of several expressions. -/
def sizeSum : List Expr → Nat
  | [] => 0
  | e :: es => e.size + sizeSum es

/-- The empty list of expressions has no nodes. -/
@[simp]
theorem sizeSum_nil : sizeSum [] = 0 :=
  rfl

/-- The nodes of several expressions are those of the first one and those of the others. -/
@[simp]
theorem sizeSum_cons (e : Expr) (es : List Expr) : sizeSum (e :: es) = e.size + sizeSum es :=
  rfl

/-- The numbers of nodes of two lists of expressions add up. -/
@[simp]
theorem sizeSum_append (es es' : List Expr) : sizeSum (es ++ es') = sizeSum es + sizeSum es' := by
  induction es with
  | nil => simp
  | cons e es ih => rw [List.cons_append, sizeSum_cons, sizeSum_cons, ih, Nat.add_assoc]

/-- The order of the expressions does not matter for the number of their nodes. -/
@[simp]
theorem sizeSum_reverse (es : List Expr) : sizeSum es.reverse = sizeSum es := by
  induction es with
  | nil => rfl
  | cons e es ih =>
    rw [List.reverse_cons, sizeSum_append, ih, sizeSum_cons, sizeSum_cons, sizeSum_nil]
    omega

/-- An expression has one node more than its parts have together. -/
theorem size_eq_sizeSum_children (e : Expr) : e.size = sizeSum e.children + 1 := by
  cases e <;> simp [size, children]

/-- A count of nodes under way. -/
@[ext]
structure Count where
  /-- The number of nodes counted so far. -/
  seen : Nat
  /-- The expressions whose nodes are still to be counted, the next one first. -/
  pending : List Expr

namespace Count

/-- The count of the nodes of an expression before the first of them. -/
def start (e : Expr) : Count :=
  ⟨0, [e]⟩

/-- Counts the root of the next pending expression and leaves its parts pending, the last part to be
the next one. -/
def step (c : Count) : Count :=
  match c.pending with
  | [] => c
  | e :: es => ⟨c.seen + 1, e.children.reverse ++ es⟩

/-- Every step keeps the sum of what is counted and what is pending. -/
theorem seen_add_sizeSum_step (c : Count) :
    c.step.seen + sizeSum c.step.pending = c.seen + sizeSum c.pending := by
  obtain ⟨seen, pending⟩ := c
  cases pending with
  | nil => rfl
  | cons e es =>
    simp only [step, sizeSum_append, sizeSum_reverse, sizeSum_cons, size_eq_sizeSum_children e]
    omega

/-- A step counts one node, as long as any is pending. -/
theorem seen_step {c : Count} (hc : c.pending ≠ []) : c.step.seen = c.seen + 1 := by
  obtain ⟨seen, pending⟩ := c
  cases pending with
  | nil => exact absurd rfl hc
  | cons e es => rfl

/-- A step takes one node from those that are pending. -/
theorem sizeSum_step {c : Count} (hc : c.pending ≠ []) :
    sizeSum c.step.pending + 1 = sizeSum c.pending := by
  have hsum := seen_add_sizeSum_step c
  have hseen := seen_step hc
  omega

/-- Repeats the step until nothing is pending. -/
def run (c : Count) : Nat :=
  if c.pending = [] then c.seen else c.step.run
termination_by sizeSum c.pending
decreasing_by
  have hstep := sizeSum_step ‹_›
  omega

/-- What a count comes to is what it has counted and what is pending. -/
theorem run_eq (c : Count) : c.run = c.seen + sizeSum c.pending := by
  fun_induction run c with
  | case1 c hc => rw [hc, sizeSum_nil, Nat.add_zero]
  | case2 c hc ih => rw [ih, seen_add_sizeSum_step]

end Count

/-- The number of nodes of the expression, counted through a list of pending nodes. -/
def nodeCount (e : Expr) : Nat :=
  (Count.start e).run

/-- Both ways to count the nodes of an expression agree. -/
theorem nodeCount_eq_size (e : Expr) : e.nodeCount = e.size := by
  rw [nodeCount, Count.run_eq, Count.start, sizeSum_cons, sizeSum_nil, Nat.zero_add, Nat.add_zero]

end Expr

end InfixArith
