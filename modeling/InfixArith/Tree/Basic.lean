/-!
# Trees of names

Trees in which every node has a name and any number of children, the form in which an expression is
shown.  The main definitions are `Tree`, its error leaf, and `Tree.preorder`, the names of all nodes
with the numbers of their children.
-/

namespace InfixArith

/-- A tree whose nodes are named. -/
inductive Tree where
  /-- A node with its name and its children, from left to right. -/
  | node (name : String) (children : List Tree)

namespace Tree

/-- The name of the root. -/
def name : Tree → String
  | node name _ => name

/-- The trees below the root, from left to right. -/
def children : Tree → List Tree
  | node _ ts => ts

/-- A tree of one node. -/
def leaf (name : String) : Tree :=
  node name []

/-- The name of the tree that is shown in place of an invalid expression. -/
def errorName : String := "Error"

/-- The tree that is shown in place of an invalid expression. -/
def error : Tree :=
  leaf errorName

/-- The names of the children of the root, from left to right. -/
def childNames (t : Tree) : List String :=
  t.children.map name

mutual

/-- The name of each node and the number of its children, a node before its children. -/
def preorder : Tree → List (String × Nat)
  | node name ts => (name, ts.length) :: preorderAll ts

/-- The nodes of several trees, one tree after the other. -/
def preorderAll : List Tree → List (String × Nat)
  | [] => []
  | t :: ts => t.preorder ++ preorderAll ts

end

/-- The number of nodes of the tree. -/
def size (t : Tree) : Nat :=
  t.preorder.length

mutual

/-- Compares two trees node by node. -/
def decEq : (t u : Tree) → Decidable (t = u)
  | node m ts, node n us =>
    if hname : m = n then
      match decEqAll ts us with
      | isTrue hchildren => isTrue (by rw [hname, hchildren])
      | isFalse hchildren => isFalse fun h => hchildren (node.inj h).2
    else
      isFalse fun h => hname (node.inj h).1

/-- Compares two lists of trees node by node. -/
def decEqAll : (ts us : List Tree) → Decidable (ts = us)
  | [], [] => isTrue rfl
  | [], _ :: _ => isFalse nofun
  | _ :: _, [] => isFalse nofun
  | t :: ts, u :: us =>
    match decEq t u with
    | isFalse hhead => isFalse fun h => hhead (List.cons.inj h).1
    | isTrue hhead =>
      match decEqAll ts us with
      | isTrue htail => isTrue (by rw [hhead, htail])
      | isFalse htail => isFalse fun h => htail (List.cons.inj h).2

end

instance : DecidableEq Tree :=
  decEq

end Tree

end InfixArith
