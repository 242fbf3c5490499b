import InfixArith.Proofs.Tree.Assembly
import Mathlib.Algebra.Ring.Nat

/-!
# Counting through pending nodes

The nodes of an expression are counted one after the other, from a list of nodes whose parts have
not been looked at.  What is counted and the sizes of what is pending have the same sum at every
step (`Count.seen_add_sizeSum_iterate`), and each step takes one node from what is pending, as long
as there are any (`Count.sizeSum_iterate`).  So the count ends after as many steps as the expression
has nodes, with that number (`Count.iterate_start`).

The tree of an expression is put together from another list of pending nodes.  Its size follows the
same recursion as that of the expression (`Tree.size_node`), hence both lists lead to the same
number (`nodeCount_refines_size`).
-/

namespace InfixArith

/-! ### The size of a tree -/

namespace Tree

/-- Sibling trees have as many nodes as the trees have together. -/
theorem length_preorderAll (ts : List Tree) : (preorderAll ts).length = (ts.map size).sum := by
  induction ts with
  | nil => rfl
  | cons t ts ih => rw [preorderAll, List.length_append, ih, List.map_cons, List.sum_cons, size]

/-- A tree has one node more than the trees below its root have together. -/
theorem size_node (name : String) (ts : List Tree) :
    (node name ts).size = (ts.map size).sum + 1 := by
  rw [size, preorder, List.length_cons, length_preorderAll]

end Tree

namespace Expr

/-- The tree of the labels has as many nodes as the expression. -/
theorem size_projection (e : Expr) : e.projection.size = e.size := by
  induction e with
  | literal text => rfl
  | binary op left right ihleft ihright =>
    simp [projection, Tree.size_node, size, ihleft, ihright]
  | factorial arg ih => simp [projection, Tree.size_node, size, ih]
  | call f arg ih => simp [projection, Tree.size_node, size, ih]

/-- The tree that is put together has as many nodes as the expression. -/
theorem size_toTree (e : Expr) : e.toTree.size = e.size := by
  rw [toTree_eq_projection, size_projection]

/-! ### Several expressions -/

/-- The nodes of several expressions are counted one expression after the other. -/
theorem sizeSum_eq_sum_nodeCount (es : List Expr) : sizeSum es = (es.map nodeCount).sum := by
  induction es with
  | nil => rfl
  | cons e es ih => rw [sizeSum_cons, ih, List.map_cons, List.sum_cons, nodeCount_eq_size]

/-- The count for an expression is one more than the counts for its parts together. -/
theorem nodeCount_eq_sum_children (e : Expr) :
    e.nodeCount = (e.children.map nodeCount).sum + 1 := by
  rw [nodeCount_eq_size, size_eq_sizeSum_children, sizeSum_eq_sum_nodeCount]

/-- Only where there is no expression, there is no node. -/
theorem sizeSum_eq_zero_iff {es : List Expr} : sizeSum es = 0 ↔ es = [] := by
  cases es with
  | nil => exact iff_of_true rfl rfl
  | cons e es =>
    have hpos : sizeSum (e :: es) ≠ 0 := by
      rw [sizeSum_cons, size_eq_sizeSum_children]
      omega
    exact iff_of_false hpos (List.cons_ne_nil e es)

/-! ### Step after step -/

namespace Count

/-- Steps keep the sum of what is counted and what is pending. -/
theorem seen_add_sizeSum_iterate (c : Count) (n : Nat) :
    (step^[n] c).seen + sizeSum (step^[n] c).pending = c.seen + sizeSum c.pending := by
  induction n with
  | zero => rfl
  | succ n ih => rw [Function.iterate_succ_apply', seen_add_sizeSum_step, ih]

/-- With nothing pending, a step changes nothing. -/
theorem step_eq_self {c : Count} (hc : c.pending = []) : c.step = c := by
  rw [step, hc]

/-- A step lowers the number of pending nodes by one, unless it is zero. -/
theorem semiconj_sizeSum :
    Function.Semiconj (fun c : Count => sizeSum c.pending) step Nat.pred := by
  intro c
  by_cases hc : c.pending = []
  · simp only [step_eq_self hc, hc]
    rfl
  · simp only [← sizeSum_step hc]
    rfl

/-- Steps lower the number of pending nodes by their own number. -/
theorem sizeSum_iterate (c : Count) (n : Nat) :
    sizeSum (step^[n] c).pending = sizeSum c.pending - n :=
  (semiconj_sizeSum.iterate_right n c).trans (Nat.pred_iterate _ n)

/-- Nothing is pending after as many steps as there were nodes pending, and not before. -/
theorem pending_iterate_eq_nil_iff (c : Count) (n : Nat) :
    (step^[n] c).pending = [] ↔ sizeSum c.pending ≤ n := by
  rw [← sizeSum_eq_zero_iff, sizeSum_iterate]
  exact Nat.sub_eq_zero_iff_le

/-- What is counted and what is pending make up the expression. -/
theorem seen_add_sizeSum_iterate_start (e : Expr) (n : Nat) :
    (step^[n] (start e)).seen + sizeSum (step^[n] (start e)).pending = e.size :=
  (seen_add_sizeSum_iterate (start e) n).trans (Nat.zero_add _)

/-- The count of an expression is over after as many steps as it has nodes, and not before. -/
theorem pending_iterate_start_eq_nil_iff (e : Expr) (n : Nat) :
    (step^[n] (start e)).pending = [] ↔ e.size ≤ n :=
  pending_iterate_eq_nil_iff (start e) n

/-- The count of an expression ends after one step for each node, with all of them. -/
theorem iterate_start (e : Expr) : step^[e.size] (start e) = ⟨e.size, []⟩ := by
  have hpending : (step^[e.size] (start e)).pending = [] :=
    (pending_iterate_start_eq_nil_iff e e.size).2 (Nat.le_refl _)
  have hseen : (step^[e.size] (start e)).seen = e.size := by
    have hsum := seen_add_sizeSum_iterate_start e e.size
    rwa [hpending, sizeSum_nil, Nat.add_zero] at hsum
  exact Count.ext hseen hpending

end Count

/-- The count through pending nodes has one node for an expression besides those of its parts, and
comes to the size that follows the structure and to the number of nodes of the tree.  At every step,
what is counted and what is pending make up the expression; nothing is pending after one step for
each node, and not before. -/
theorem nodeCount_refines_size (e : Expr) :
    e.nodeCount = (e.children.map nodeCount).sum + 1 ∧
      (∀ text : String, (literal text).nodeCount = 1) ∧
      e.nodeCount = e.size ∧
      e.nodeCount = e.toTree.size ∧
      (∀ n : Nat, (Count.step^[n] (.start e)).seen +
        sizeSum (Count.step^[n] (.start e)).pending = e.size) ∧
      (∀ n : Nat, (Count.step^[n] (.start e)).pending = [] ↔ e.nodeCount ≤ n) ∧
      Count.step^[e.nodeCount] (.start e) = ⟨e.nodeCount, []⟩ := by
  refine ⟨nodeCount_eq_sum_children e, ?_, nodeCount_eq_size e, ?_,
    Count.seen_add_sizeSum_iterate_start e, ?_, ?_⟩
  · intro text
    exact nodeCount_eq_size (literal text)
  · rw [nodeCount_eq_size, size_toTree]
  · intro n
    rw [nodeCount_eq_size]
    exact Count.pending_iterate_start_eq_nil_iff e n
  · rw [nodeCount_eq_size]
    exact Count.iterate_start e

/-- In `1-2!` the factorial is counted before the first number. -/
example :
    Count.step^[2] (.start (.binary .subtract (.literal "1") (.factorial (.literal "2")))) =
      ⟨2, [.literal "2", .literal "1"]⟩ :=
  rfl

end Expr

end InfixArith
