import InfixArith.Tree.Basic

/-!
# Drawing trees

A tree is drawn with one row for each node, a node before its children.  In front of a name stands
its branch sign, and before that a rail or a gap for each of its ancestors below the root.  The main
definitions are `Tree.Row`, `Tree.rows` and `Tree.draw`.  A name is written as it is, also when it
holds a line end.
-/

namespace InfixArith.Tree

/-- A row of a drawing. -/
structure Row where
  /-- For each ancestor below the root and for the node itself, the outermost first, whether it is
  the last child of its parent. -/
  path : List Bool
  /-- The name of the node. -/
  name : String
deriving DecidableEq

namespace Row

/-- The signs in front of a name. -/
def lead : List Bool → String
  | [] => ""
  | [isLast] => if isLast then "└─ " else "├─ "
  | isLast :: path => (if isLast then "   " else "│  ") ++ lead path

/-- The row as text, with its line end. -/
def text (r : Row) : String :=
  lead r.path ++ r.name ++ "\n"

end Row

mutual

/-- The rows of a tree whose root stands at the path. -/
def rowsAt (path : List Bool) : Tree → List Row
  | node name ts => ⟨path, name⟩ :: childRows path ts

/-- The rows of sibling trees whose parent stands at the path. -/
def childRows (path : List Bool) : List Tree → List Row
  | [] => []
  | t :: ts => t.rowsAt (path ++ [ts.isEmpty]) ++ childRows path ts

end

/-- The rows of the tree. -/
def rows (t : Tree) : List Row :=
  t.rowsAt []

/-- The drawing of the tree. -/
def draw (t : Tree) : String :=
  String.join (t.rows.map Row.text)

end InfixArith.Tree
