import InfixArith.Expr.Visitor
import InfixArith.Tree.Builder
import InfixArith.Tree.Drawing

/-!
# Expressions as trees of names

An expression is shown as the tree of its labels.  The tree is given twice: `Expr.projection`
follows the structure, and `Expr.toTree` works through a list of pending visits, so that it takes no
more room on an expression that is nested deeply to the left.  A third way, `Expr.outline`, lets a
visitor build the tree below an extra root; `Expr.draw` draws that one.
-/

namespace InfixArith

namespace Expr

/-- The tree of the labels of the expression. -/
def projection : Expr → Tree
  | literal text => .leaf text
  | binary op left right => .node (String.singleton op.symbol) [left.projection, right.projection]
  | factorial arg => .node (String.singleton factorialSymbol) [arg.projection]
  | call f arg => .node f.name [arg.projection]

/-- The tree of an expression has its label at the root and the trees of its parts below it. -/
theorem projection_eq_node (e : Expr) :
    e.projection = .node e.label (e.children.map projection) := by
  cases e <;> rfl

/-- A pending visit of a node. -/
inductive Visit where
  /-- The node is to be taken apart. -/
  | enter (e : Expr)
  /-- The trees of the parts of the node are finished and are to be put together. -/
  | exit (e : Expr)

/-- The number of visits that a pending visit leads to, itself included. -/
def Visit.weight : Visit → Nat
  | enter e => 2 * e.size
  | exit _ => 1

/-- The number of visits that several pending visits lead to. -/
def Visit.weightSum : List Visit → Nat
  | [] => 0
  | v :: vs => v.weight + weightSum vs

/-- The numbers of visits of two lists of pending visits add up. -/
theorem weightSum_append (vs vs' : List Visit) :
    Visit.weightSum (vs ++ vs') = Visit.weightSum vs + Visit.weightSum vs' := by
  induction vs with
  | nil => simp [Visit.weightSum]
  | cons v vs ih => rw [List.cons_append, Visit.weightSum, Visit.weightSum, ih, Nat.add_assoc]

/-- Entering expressions leads to two visits for each of their nodes. -/
theorem weightSum_map_enter (es : List Expr) :
    Visit.weightSum (es.map .enter) = 2 * sizeSum es := by
  induction es with
  | nil => rfl
  | cons e es ih =>
    rw [List.map_cons, Visit.weightSum, Visit.weight, ih, sizeSum_cons]
    omega

/-- A tree being put together. -/
structure Assembly where
  /-- The visits still to be made, the next one first. -/
  pending : List Visit
  /-- The finished trees, the last one first. -/
  finished : List Tree

namespace Assembly

/-- The assembly of the tree of an expression before the first visit. -/
def start (e : Expr) : Assembly :=
  ⟨[.enter e], []⟩

/-- The number of visits that are still to be made. -/
def remaining (a : Assembly) : Nat :=
  Visit.weightSum a.pending

/-- The finished trees after a node has taken its parts from them. -/
def close (e : Expr) (finished : List Tree) : List Tree :=
  .node e.label (finished.take e.children.length).reverse :: finished.drop e.children.length

/-- Makes the next visit. -/
def step (a : Assembly) : Assembly :=
  match a.pending with
  | [] => a
  | .enter e :: vs => ⟨e.children.map .enter ++ .exit e :: vs, a.finished⟩
  | .exit e :: vs => ⟨vs, close e a.finished⟩

/-- A visit is one of those that were counted. -/
theorem remaining_step {a : Assembly} (ha : a.pending ≠ []) :
    a.step.remaining + 1 = a.remaining := by
  obtain ⟨pending, finished⟩ := a
  cases pending with
  | nil => exact absurd rfl ha
  | cons v vs =>
    cases v with
    | enter e =>
      simp only [step, remaining, weightSum_append, weightSum_map_enter, Visit.weightSum,
        Visit.weight, size_eq_sizeSum_children e]
      omega
    | exit e =>
      simp only [step, remaining, Visit.weightSum, Visit.weight]
      omega

/-- Makes visits until none is pending. -/
def run (a : Assembly) : List Tree :=
  if a.pending = [] then a.finished else a.step.run
termination_by a.remaining
decreasing_by
  have hstep := remaining_step ‹_›
  omega

end Assembly

/-- The tree of the labels of the expression, put together through a list of pending visits. -/
def toTree (e : Expr) : Tree :=
  match (Assembly.start e).run with
  | t :: _ => t
  | [] => .error

end Expr

/-- Builds the tree of the labels, one child of the open node for each node of the expression. -/
def Visitor.outline : Visitor Tree.Builder where
  onLiteral text := .addLeaf text
  onBinary op _ _ walk b := (walk (b.beginChild (String.singleton op.symbol))).endChild
  onFactorial _ walk b := (walk (b.beginChild (String.singleton factorialSymbol))).endChild
  onCall f _ walk b := (walk (b.beginChild f.name)).endChild

namespace Expr

/-- The name of the root above the tree of an expression. -/
def outlineName : String := "expression"

/-- The tree of the labels below an extra root. -/
def outline (e : Expr) : Tree :=
  (e.accept .outline (.start outlineName)).build

/-- The drawing of the expression. -/
def draw (e : Expr) : String :=
  e.outline.draw

end Expr

end InfixArith
