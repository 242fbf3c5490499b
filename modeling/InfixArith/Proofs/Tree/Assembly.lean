import InfixArith.Expr.Projection
import Mathlib.Data.Nat.SuccPred
import Mathlib.Logic.Function.Iterate

/-!
# Two ways to put a tree together

The tree of an expression is `Expr.projection`.  This file proves that the two ways to build it step
by step arrive there.

The first way works through pending visits.  `Assembly.deliver` says what a list of visits will make
of the finished trees, and fails when a node comes to its turn before its parts are finished.  No
visit changes what all of them deliver (`Assembly.outcome_step`), so from the first visit to the
last one no node finds too few trees, and the tree of the whole expression is all that is left
(`toTree_refines_projection`).

The second way walks through the expression with a builder.  Whatever node is open, the walk leaves
it open with one child more (`accept_outline`), so it ends at the root where it began, and the
drawing of an expression is that of its tree below an extra root (`draw_outline`).
-/

namespace InfixArith.Expr

/-! ### Pending visits -/

namespace Assembly

/-- The finished trees after all the visits, when a visit that enters a node adds its tree at once.
There are none when a node is left and fewer trees are finished than it has parts. -/
def deliver : List Visit → List Tree → Option (List Tree)
  | [], finished => some finished
  | .enter e :: vs, finished => deliver vs (e.projection :: finished)
  | .exit e :: vs, finished =>
    if e.children.length ≤ finished.length then deliver vs (close e finished) else none

/-- The finished trees that the assembly will end with. -/
def outcome (a : Assembly) : Option (List Tree) :=
  deliver a.pending a.finished

variable {a : Assembly} {e : Expr} {vs : List Visit} {ts finished : List Tree}

/-- A node that finds the trees of its parts puts its own in their place. -/
theorem deliver_exit (h : e.children.length ≤ finished.length) :
    deliver (.exit e :: vs) finished = deliver vs (close e finished) := by
  rw [deliver, if_pos h]

/-- Entering nodes one after the other adds their trees in reverse. -/
theorem deliver_map_enter (es : List Expr) (vs : List Visit) (finished : List Tree) :
    deliver (es.map .enter ++ vs) finished =
      deliver vs ((es.map projection).reverse ++ finished) := by
  induction es generalizing finished with
  | nil => rfl
  | cons e es ih =>
    rw [List.map_cons, List.cons_append, deliver, ih, List.map_cons, List.reverse_cons,
      List.append_assoc, List.singleton_append]

/-- A node takes the trees of its parts and puts its own in their place. -/
theorem close_projections (e : Expr) (finished : List Tree) :
    close e ((e.children.map projection).reverse ++ finished) = e.projection :: finished := by
  have hlength : ((e.children.map projection).reverse).length = e.children.length := by
    rw [List.length_reverse, List.length_map]
  rw [close, ← hlength, List.take_left, List.drop_left, List.reverse_reverse, ← projection_eq_node]

/-- Taking a node apart delivers what entering it does. -/
theorem deliver_children (e : Expr) (vs : List Visit) (finished : List Tree) :
    deliver (e.children.map .enter ++ .exit e :: vs) finished =
      deliver (.enter e :: vs) finished := by
  have hparts :
      e.children.length ≤ ((e.children.map projection).reverse ++ finished).length := by
    rw [List.length_append, List.length_reverse, List.length_map]
    exact Nat.le_add_right _ _
  rw [deliver_map_enter, deliver_exit hparts, close_projections, deliver]

/-- A node that is left on the way to an outcome finds as many trees as it has parts. -/
theorem length_le_of_outcome (h : a.outcome = some ts) (ha : a.pending = .exit e :: vs) :
    e.children.length ≤ a.finished.length := by
  rw [outcome, ha, deliver] at h
  by_contra hfew
  rw [if_neg hfew] at h
  cases h

/-- A visit does not change what the assembly will end with. -/
theorem outcome_step (h : a.outcome = some ts) : a.step.outcome = some ts := by
  obtain ⟨pending, finished⟩ := a
  cases pending with
  | nil => exact h
  | cons v vs =>
    cases v with
    | enter e => exact (deliver_children e vs finished).trans h
    | exit e =>
      have hparts : e.children.length ≤ finished.length := length_le_of_outcome h rfl
      exact (deliver_exit hparts).symm.trans h

/-- No number of visits changes what the assembly will end with. -/
theorem outcome_iterate (h : a.outcome = some ts) (n : Nat) : (step^[n] a).outcome = some ts := by
  induction n with
  | zero => exact h
  | succ n ih =>
    rw [Function.iterate_succ_apply']
    exact outcome_step ih

/-- Before the first visit the tree of the expression is what will be delivered. -/
theorem outcome_start (e : Expr) : (start e).outcome = some [e.projection] :=
  rfl

/-! ### The last visit -/

/-- With no visit pending, a step changes nothing. -/
theorem step_eq_self (ha : a.pending = []) : a.step = a := by
  rw [step, ha]

/-- A step lowers the number of visits by one, unless it is zero. -/
theorem semiconj_remaining : Function.Semiconj remaining step Nat.pred := by
  intro a
  by_cases ha : a.pending = []
  · rw [step_eq_self ha, remaining, ha]
    rfl
  · rw [← remaining_step ha]
    rfl

/-- Steps lower the number of visits by their own number. -/
theorem remaining_iterate (a : Assembly) (n : Nat) :
    (step^[n] a).remaining = a.remaining - n := by
  rw [semiconj_remaining.iterate_right n, Nat.pred_iterate]

/-- When no visit is to be made, none is pending. -/
theorem pending_eq_nil_of_remaining (h : a.remaining = 0) : a.pending = [] := by
  by_contra hpending
  have hstep := remaining_step hpending
  omega

/-- When no visit is pending, the finished trees are those that were to be delivered. -/
theorem eq_of_outcome (h : a.outcome = some ts) (ha : a.pending = []) : a = ⟨[], ts⟩ := by
  obtain ⟨pending, finished⟩ := a
  obtain rfl : pending = [] := ha
  obtain rfl : finished = ts := Option.some.inj h
  rfl

/-- The assembly of a tree ends after two visits of each node. -/
theorem iterate_start (e : Expr) : step^[2 * e.size] (start e) = ⟨[], [e.projection]⟩ := by
  have hremaining : (step^[2 * e.size] (start e)).remaining = 0 := by
    rw [remaining_iterate]
    exact Nat.sub_self _
  exact eq_of_outcome (outcome_iterate (outcome_start e) _)
    (pending_eq_nil_of_remaining hremaining)

/-- The run ends with what was to be delivered. -/
theorem run_of_outcome (h : a.outcome = some ts) : a.run = ts := by
  fun_induction run a with
  | case1 a ha => rw [eq_of_outcome h ha]
  | case2 a ha ih => exact ih (outcome_step h)

end Assembly

/-- The run for an expression leaves its tree and nothing else. -/
theorem run_start (e : Expr) : (Assembly.start e).run = [e.projection] :=
  Assembly.run_of_outcome (Assembly.outcome_start e)

/-- The tree that is put together is the tree of the labels. -/
theorem toTree_eq_projection (e : Expr) : e.toTree = e.projection := by
  rw [toTree, run_start]

/-- The visits give the tree that follows the structure.  Whenever a node is left, as many trees are
finished as it has parts at least, and when no visit is pending, one tree is finished. -/
theorem toTree_refines_projection (e : Expr) :
    e.toTree = e.projection ∧
      e.projection = .node e.label (e.children.map projection) ∧
      (∀ (n : Nat) (e' : Expr) (vs : List Visit),
        (Assembly.step^[n] (.start e)).pending = .exit e' :: vs →
          e'.children.length ≤ (Assembly.step^[n] (.start e)).finished.length) ∧
      Assembly.step^[2 * e.size] (.start e) = ⟨[], [e.projection]⟩ ∧
      (Assembly.start e).run = [e.projection] := by
  refine ⟨toTree_eq_projection e, projection_eq_node e, ?_, Assembly.iterate_start e, run_start e⟩
  intro n e' vs hpending
  exact Assembly.length_le_of_outcome
    (Assembly.outcome_iterate (Assembly.outcome_start e) n) hpending

/-- The expression `1-2!`. -/
def difference : Expr :=
  .binary .subtract (.literal "1") (.factorial (.literal "2"))

/-- The eighth visit puts the tree of `1-2!` together from two finished ones. -/
theorem toTree_refines_projection_difference :
    (Assembly.step^[7] (.start difference)).pending = [.exit difference] ∧
      (Assembly.step^[7] (.start difference)).finished =
        [.node "!" [.leaf "2"], .leaf "1"] ∧
      difference.children.length ≤ (Assembly.step^[7] (.start difference)).finished.length ∧
      difference.toTree = .node "-" [.leaf "1", .node "!" [.leaf "2"]] := by
  have hpending : (Assembly.step^[7] (.start difference)).pending = [.exit difference] := rfl
  obtain ⟨htree, -, hparts, -⟩ := toTree_refines_projection difference
  exact ⟨hpending, rfl, hparts 7 difference [] hpending, htree⟩

/-! ### A walk with a builder -/

/-- The walk leaves the builder at the node where it began, with the tree of the expression as one
child more. -/
theorem accept_outline (e : Expr) (b : Tree.Builder) :
    e.accept .outline b = { b with done := e.projection :: b.done } := by
  induction e generalizing b with
  | literal text => rfl
  | binary op left right ihleft ihright =>
    change (right.accept .outline (left.accept .outline
      (b.beginChild (String.singleton op.symbol)))).endChild = _
    rw [ihleft, ihright]
    rfl
  | factorial arg ih =>
    change (arg.accept .outline (b.beginChild (String.singleton factorialSymbol))).endChild = _
    rw [ih]
    rfl
  | call f arg ih =>
    change (arg.accept .outline (b.beginChild f.name)).endChild = _
    rw [ih]
    rfl

/-- The outline is the tree of the labels below a root named `expression`. -/
theorem outline_eq_node (e : Expr) : e.outline = .node "expression" [e.projection] := by
  rw [outline, accept_outline]
  rfl

/-- An expression is drawn as the tree that its visits give, below a root named `expression`.  The
walk through it adds that tree to the node that is open, and so ends at the root. -/
theorem draw_outline (e : Expr) :
    e.draw = (Tree.node "expression" [e.toTree]).draw ∧
      (∀ b : Tree.Builder, e.accept .outline b = { b with done := e.toTree :: b.done }) ∧
      (e.accept .outline (.start outlineName)).isAtRoot = true := by
  refine ⟨?_, ?_, ?_⟩
  · rw [draw, outline_eq_node, toTree_eq_projection]
  · intro b
    rw [accept_outline, toTree_eq_projection]
  · rw [accept_outline]
    rfl

end InfixArith.Expr
