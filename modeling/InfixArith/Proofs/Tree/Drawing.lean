import InfixArith.Proofs.Text.Lines
import InfixArith.Proofs.Tree.Projection

/-!
# Reading a drawing

A drawing is read from the top.  Its first line is the name of the root.  Each other line belongs to
a child of the root and starts with three signs that tell whether it begins a child or goes on with
the one before it; without these signs, the lines of a child are a drawing again.  Names may be full
of such signs, so a line alone does not tell where its name begins, but the lines around it do.

`Tree.ofDrawing?` reads so, and gives back every tree without line ends in its names
(`Tree.ofDrawing?_draw`).  Hence different trees have different drawings, and as a drawing has one
line for each node, different expressions that are read from texts have different drawings too
(`draw_determines_tree`).

Trees that are siblings are taken together: `Tree.forest_induction` splits them into the name of the
first one, the trees below it and the trees beside it.
-/

namespace InfixArith

namespace Tree

/-! ### Sibling trees -/

/-- What holds of no trees, and of trees when it holds of those below the first and of those beside
it, holds of all. -/
@[elab_as_elim]
theorem forest_induction {motive : List Tree → Prop} (nil : motive [])
    (cons : ∀ (name : String) (us ts : List Tree), motive us → motive ts →
      motive (.node name us :: ts)) :
    ∀ ts, motive ts
  | [] => nil
  | .node name us :: ts =>
    cons name us ts (forest_induction nil cons us) (forest_induction nil cons ts)

/-- The rows of sibling trees are the root of the first one, the rows below it, and the rows of the
trees beside it. -/
theorem childRows_cons (path : List Bool) (name : String) (us ts : List Tree) :
    childRows path (.node name us :: ts) =
      ⟨path ++ [ts.isEmpty], name⟩ ::
        (childRows (path ++ [ts.isEmpty]) us ++ childRows path ts) := by
  rw [childRows, rowsAt, List.cons_append]

/-- A drawing has the names of the nodes, in their order. -/
theorem map_name_childRows (path : List Bool) (ts : List Tree) :
    (childRows path ts).map Row.name = (preorderAll ts).map Prod.fst := by
  induction ts using forest_induction generalizing path with
  | nil => rfl
  | cons name us ts ihus ihts =>
    rw [childRows_cons, List.map_cons, List.map_append, ihus, ihts, preorderAll, preorder,
      List.cons_append, List.map_cons, List.map_append]

/-- The rows of a tree have the names of its nodes, in their order. -/
theorem map_name_rows (t : Tree) : t.rows.map Row.name = t.preorder.map Prod.fst := by
  obtain ⟨name, ts⟩ := t
  rw [rows, rowsAt, List.map_cons, map_name_childRows, preorder, List.map_cons]

/-- A tree has one row for each node. -/
theorem length_rows (t : Tree) : t.rows.length = t.size := by
  have hnames := congrArg List.length t.map_name_rows
  rwa [List.length_map, List.length_map] at hnames

/-! ### Rows of a subtree -/

/-- The row of a node in the drawing of a tree that its own tree is a child of. -/
def Row.below (isLast : Bool) (r : Row) : Row :=
  ⟨isLast :: r.path, r.name⟩

/-- Below one more node all rows have one more sign in front. -/
theorem childRows_below (isLast : Bool) (path : List Bool) (ts : List Tree) :
    childRows (isLast :: path) ts = (childRows path ts).map (Row.below isLast) := by
  induction ts using forest_induction generalizing path with
  | nil => rfl
  | cons name us ts ihus ihts =>
    rw [childRows_cons, childRows_cons, List.cons_append, ihus, ihts, List.map_cons,
      List.map_append]
    rfl

/-- Only the root has a row without signs in front. -/
theorem path_ne_nil_of_mem_childRows {path : List Bool} {ts : List Tree} {r : Row}
    (h : r ∈ childRows path ts) : r.path ≠ [] := by
  induction ts using forest_induction generalizing path with
  | nil => cases h
  | cons name us ts ihus ihts =>
    rw [childRows_cons, List.mem_cons, List.mem_append] at h
    rcases h with rfl | h | h
    · exact List.append_ne_nil_of_right_ne_nil path (List.cons_ne_nil _ _)
    · exact ihus h
    · exact ihts h

/-! ### Lines -/

/-- The row as text, without its line end. -/
def Row.line (r : Row) : List Char :=
  (lead r.path ++ r.name).toList

/-- The signs that begin a child. -/
def branch (isLast : Bool) : List Char :=
  (if isLast then "└─ " else "├─ ").toList

/-- The signs in front of the other lines of a child. -/
def rail (isLast : Bool) : List Char :=
  (if isLast then "   " else "│  ").toList

/-- The signs of a row begin with a branch when its node is a child of the root, and with a rail
otherwise. -/
theorem toList_lead_cons (isLast : Bool) (path : List Bool) :
    (Row.lead (isLast :: path)).toList =
      (if path = [] then branch isLast else rail isLast) ++ (Row.lead path).toList := by
  cases path with
  | nil =>
    rw [if_pos rfl]
    exact (List.append_nil _).symm
  | cons isLast' path =>
    rw [Row.lead, String.toList_append, if_neg (List.cons_ne_nil _ _), rail]
    exact List.cons_ne_nil _ _

/-- No line end comes from the signs. -/
theorem newline_notMem_lead (path : List Bool) : '\n' ∉ (Row.lead path).toList := by
  induction path with
  | nil => decide
  | cons isLast path ih =>
    rw [toList_lead_cons, List.mem_append, not_or]
    refine ⟨?_, ih⟩
    split <;> cases isLast <;> decide

/-- The line of the root is its name. -/
theorem line_root (name : String) : Row.line ⟨[], name⟩ = name.toList := by
  rw [Row.line, Row.lead, String.empty_append]

/-- In the drawing of a tree around it, the root of a tree has a branch and the nodes below it have
a rail. -/
theorem line_below (isLast : Bool) (r : Row) :
    (r.below isLast).line =
      (if r.path = [] then branch isLast else rail isLast) ++ r.line := by
  rw [Row.line, Row.line, Row.below, String.toList_append, toList_lead_cons, String.toList_append,
    List.append_assoc]

/-- The line of a child of the root is a branch and its name. -/
theorem line_child (isLast : Bool) (name : String) :
    Row.line ⟨[isLast], name⟩ = branch isLast ++ name.toList := by
  rw [← line_root]
  exact line_below isLast ⟨[], name⟩

/-! ### Reading -/

/-- Whether a line below the root goes on with a child that is begun before it. -/
def goesOn : List Char → Bool
  | [] => false
  | c :: _ => c = ' ' || c = '│'

/-- A line that begins with a rail goes on with the child before it. -/
theorem goesOn_rail (isLast : Bool) (cs : List Char) : goesOn (rail isLast ++ cs) = true := by
  cases isLast <;> rfl

/-- A line that begins with a branch begins a child. -/
theorem goesOn_branch (isLast : Bool) (cs : List Char) : goesOn (branch isLast ++ cs) = false := by
  cases isLast <;> rfl

/-- A branch is three signs. -/
theorem drop_branch (isLast : Bool) (cs : List Char) : (branch isLast ++ cs).drop 3 = cs := by
  cases isLast <;> rfl

/-- A rail is three signs. -/
theorem drop_rail (isLast : Bool) (cs : List Char) : (rail isLast ++ cs).drop 3 = cs := by
  cases isLast <;> rfl

/-- Reads sibling trees from the lines below their parent. -/
def readChildren : List (List Char) → List Tree
  | [] => []
  | l :: ls =>
    .node (.ofList (l.drop 3)) (readChildren ((ls.takeWhile goesOn).map (List.drop 3))) ::
      readChildren (ls.dropWhile goesOn)
termination_by ls => ls.length
decreasing_by
  · rw [List.length_map, List.length_cons]
    exact Nat.lt_succ_of_le (List.takeWhile_sublist _).length_le
  · rw [List.length_cons]
    exact Nat.lt_succ_of_le (List.dropWhile_sublist _).length_le

/-- Reads a tree from its drawing. -/
def ofDrawing? (text : String) : Option Tree :=
  match Text.lines text.toList with
  | [] => none
  | l :: ls => some (.node (.ofList l) (readChildren ls))

/-- The lines of sibling trees begin a child. -/
theorem takeWhile_goesOn_childRows (ts : List Tree) :
    ((childRows [] ts).map Row.line).takeWhile goesOn = [] ∧
      ((childRows [] ts).map Row.line).dropWhile goesOn = (childRows [] ts).map Row.line := by
  cases ts with
  | nil => exact ⟨rfl, rfl⟩
  | cons t ts =>
    obtain ⟨name, us⟩ := t
    have hbegins : ¬ goesOn (Row.line ⟨[ts.isEmpty], name⟩) = true := by
      rw [line_child, goesOn_branch]
      exact Bool.false_ne_true
    rw [childRows_cons, List.nil_append, List.map_cons]
    exact ⟨List.takeWhile_cons_of_neg hbegins, List.dropWhile_cons_of_neg hbegins⟩

/-- Below a parent, the first tree has a line with a branch, and then the lines of its own children
behind a rail. -/
theorem map_line_childRows_cons (name : String) (us ts : List Tree) :
    (childRows [] (.node name us :: ts)).map Row.line =
      (branch ts.isEmpty ++ name.toList) ::
        (((childRows [] us).map Row.line).map (rail ts.isEmpty ++ ·) ++
          (childRows [] ts).map Row.line) := by
  have hrail : ∀ r ∈ childRows [] us, (r.below ts.isEmpty).line = rail ts.isEmpty ++ r.line := by
    intro r hr
    rw [line_below, if_neg (path_ne_nil_of_mem_childRows hr)]
  have hchildren : ((childRows [] us).map (Row.below ts.isEmpty)).map Row.line =
      ((childRows [] us).map Row.line).map (rail ts.isEmpty ++ ·) := by
    rw [List.map_map, List.map_map]
    exact List.map_congr_left hrail
  rw [childRows_cons, List.nil_append, childRows_below, List.map_cons, List.map_append, line_child,
    hchildren]

/-- Reading the lines of sibling trees gives back the trees. -/
theorem readChildren_childRows (ts : List Tree) :
    readChildren ((childRows [] ts).map Row.line) = ts := by
  induction ts using forest_induction with
  | nil => rw [childRows, List.map_nil, readChildren]
  | cons name us ts ihus ihts =>
    have hrails : ∀ l ∈ ((childRows [] us).map Row.line).map (rail ts.isEmpty ++ ·),
        goesOn l = true := by
      intro l hl
      obtain ⟨l', -, rfl⟩ := List.mem_map.1 hl
      exact goesOn_rail _ _
    have hdrop : (((childRows [] us).map Row.line).map (rail ts.isEmpty ++ ·)).map (List.drop 3) =
        (childRows [] us).map Row.line := by
      rw [List.map_map]
      exact (List.map_congr_left fun l _ => drop_rail _ l).trans (List.map_id _)
    obtain ⟨htake, hrest⟩ := takeWhile_goesOn_childRows ts
    -- The lines that go on are those behind rails, and all of them, as the next tree begins anew.
    rw [map_line_childRows_cons, readChildren, List.takeWhile_append_of_pos hrails, htake,
      List.append_nil, hdrop, List.dropWhile_append_of_pos hrails, hrest, ihus, ihts, drop_branch,
      String.ofList_toList]

/-! ### Trees without line ends -/

/-- No name in the tree has a line end. -/
def Unbroken (t : Tree) : Prop :=
  ∀ p ∈ t.preorder, '\n' ∉ p.1.toList

instance (t : Tree) : Decidable t.Unbroken :=
  inferInstanceAs (Decidable (∀ p ∈ t.preorder, '\n' ∉ p.1.toList))

/-- The names of sibling trees are without line ends when those of each tree are. -/
theorem forall_mem_preorderAll_iff {ts : List Tree} :
    (∀ p ∈ preorderAll ts, '\n' ∉ p.1.toList) ↔ ∀ t ∈ ts, t.Unbroken := by
  induction ts with
  | nil => simp [preorderAll]
  | cons t ts ih => rw [preorderAll, List.forall_mem_append, ih, List.forall_mem_cons, Unbroken]

/-- The names of a tree are without line ends when that of its root is and those of the trees below
it are. -/
theorem unbroken_node {name : String} {ts : List Tree} :
    (node name ts).Unbroken ↔ '\n' ∉ name.toList ∧ ∀ t ∈ ts, t.Unbroken := by
  rw [Unbroken, preorder, List.forall_mem_cons, forall_mem_preorderAll_iff]

variable {s t : Tree}

/-- A drawing is the lines of the rows, each with a line end. -/
theorem toList_draw (t : Tree) :
    t.draw.toList = (t.rows.map Row.line).flatMap fun l => l ++ ['\n'] := by
  rw [draw, String.toList_join, List.flatMap_map, List.flatMap_map]
  refine List.flatMap_congr fun r _ => ?_
  rw [Row.text, String.toList_append]
  rfl

/-- The lines of a drawing are those of its rows, unless a name holds a line end. -/
theorem lines_draw (h : t.Unbroken) : Text.lines t.draw.toList = t.rows.map Row.line := by
  rw [toList_draw]
  refine Text.lines_flatMap fun l hl => ?_
  obtain ⟨r, hr, rfl⟩ := List.mem_map.1 hl
  have hname : r.name ∈ t.preorder.map Prod.fst := by
    rw [← map_name_rows]
    exact List.mem_map_of_mem hr
  obtain ⟨p, hp, hpname⟩ := List.mem_map.1 hname
  rw [Row.line, String.toList_append, List.mem_append, not_or]
  exact ⟨newline_notMem_lead r.path, hpname ▸ h p hp⟩

/-- A tree without line ends in its names is read back from its drawing. -/
theorem ofDrawing?_draw (h : t.Unbroken) : ofDrawing? t.draw = some t := by
  obtain ⟨name, ts⟩ := t
  rw [ofDrawing?, lines_draw h, rows, rowsAt, List.map_cons, line_root]
  simp only [readChildren_childRows, String.ofList_toList]

/-- Trees without line ends in their names are drawn alike only when they are the same. -/
theorem draw_eq_draw_iff (hs : s.Unbroken) (ht : t.Unbroken) : s.draw = t.draw ↔ s = t := by
  constructor
  · intro h
    have hread : some s = some t := by rw [← ofDrawing?_draw hs, ← ofDrawing?_draw ht, h]
    exact Option.some.inj hread
  · rintro rfl
    rfl

/-- A drawing has one line for each node, unless a name holds a line end. -/
theorem length_lines_draw (h : t.Unbroken) : (Text.lines t.draw.toList).length = t.size := by
  rw [lines_draw h, List.length_map, length_rows]

end Tree

/-! ### Drawings of expressions -/

/-- The tree of an expression has line ends only from its literals. -/
theorem Expr.unbroken_projection {e : Expr} (h : ∀ l ∈ e.literals, '\n' ∉ l.toList) :
    e.projection.Unbroken := by
  induction e with
  | literal text =>
    rw [projection, Tree.leaf, Tree.unbroken_node]
    exact ⟨h text (List.mem_singleton.2 rfl), List.forall_mem_nil _⟩
  | binary op left right ihleft ihright =>
    obtain ⟨hleft, hright⟩ := List.forall_mem_append.1 h
    rw [projection, Tree.unbroken_node]
    refine ⟨by cases op <;> decide, ?_⟩
    rw [List.forall_mem_cons, List.forall_mem_singleton]
    exact ⟨ihleft hleft, ihright hright⟩
  | factorial arg ih =>
    rw [projection, Tree.unbroken_node, List.forall_mem_singleton]
    exact ⟨by decide, ih h⟩
  | call f arg ih =>
    rw [projection, Tree.unbroken_node, List.forall_mem_singleton]
    exact ⟨by cases f <;> decide, ih h⟩

/-- The tree of a text has no line ends, valid or not. -/
theorem unbroken_tree {text : String} {a : Analysis} (h : analyze text = .ok a) :
    a.derivation.tree.Unbroken := by
  cases hverdict : a.derivation.verdict with
  | valid e =>
    rw [Derivation.tree_of_valid hverdict, Expr.toTree_eq_projection]
    refine Expr.unbroken_projection fun l hl hnewline => ?_
    exact absurd (isDigit_of_mem_literals h hverdict hl _ hnewline) (by decide)
  | invalid error =>
    rw [Derivation.tree_of_invalid hverdict]
    decide

/-- Trees without line ends in their names have the same drawing only if they are the same, and a
drawing has as many lines as the tree has nodes.  So the drawings of two texts are equal if both
texts are the same expression or both are none, and only then. -/
theorem draw_determines_tree :
    (∀ s t : Tree, s.Unbroken → t.Unbroken → (s.draw = t.draw ↔ s = t)) ∧
    (∀ t : Tree, t.Unbroken → (Text.lines t.draw.toList).length = t.size) ∧
    ∀ (text text' : String) (a a' : Analysis), analyze text = .ok a → analyze text' = .ok a' →
      (a.derivation.tree.draw = a'.derivation.tree.draw ↔
        a.derivation.expr? = a'.derivation.expr?) := by
  refine ⟨?_, ?_, ?_⟩
  · intro s t hs ht
    exact Tree.draw_eq_draw_iff hs ht
  · intro t ht
    exact Tree.length_lines_draw ht
  · intro text text' a a' h h'
    rw [Tree.draw_eq_draw_iff (unbroken_tree h) (unbroken_tree h'), tree_eq_tree_iff h h']

/-- A root with two children, the second one with a name that looks like a line further inside. -/
def siblings : Tree :=
  .node "^" [.leaf "1", .leaf "   └─ 2"]

/-- A root with one child that has a child. -/
def lineage : Tree :=
  .node "^" [.node "1" [.leaf "2"]]

/-- Signs in a name do not make one drawing of two trees, and parentheses do not show. -/
theorem draw_determines_tree_signs :
    (siblings.Unbroken ∧ lineage.Unbroken ∧ siblings.draw ≠ lineage.draw) ∧
    (Text.lines siblings.draw.toList).length = 3 ∧
    (analyze "1 + 2" = .ok ⟨sumTokens, parse sumTokens⟩ ∧
      analyze "(1)+2" = .ok ⟨groupedSumTokens, parse groupedSumTokens⟩ ∧
      (parse sumTokens).tree.draw = (parse groupedSumTokens).tree.draw) := by
  have hsiblings : siblings.Unbroken := by decide
  have hlineage : lineage.Unbroken := by decide
  have hne : siblings ≠ lineage := by decide
  have htext : analyze "1 + 2" = .ok ⟨sumTokens, parse sumTokens⟩ := by rfl
  have htext' : analyze "(1)+2" = .ok ⟨groupedSumTokens, parse groupedSumTokens⟩ := by rfl
  have hexpr : (parse sumTokens).expr? = (parse groupedSumTokens).expr? := by rfl
  refine ⟨⟨hsiblings, hlineage, ?_⟩, draw_determines_tree.2.1 siblings hsiblings, htext, htext',
    (draw_determines_tree.2.2 _ _ _ _ htext htext').2 hexpr⟩
  intro hdraw
  exact hne ((draw_determines_tree.1 siblings lineage hsiblings hlineage).1 hdraw)

/-- With a line end in a name, two trees may have one drawing. -/
example : (Tree.leaf "1\n└─ 2").draw = (Tree.node "1" [.leaf "2"]).draw := by
  decide

end InfixArith
