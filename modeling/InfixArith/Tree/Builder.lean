import InfixArith.Tree.Basic

/-!
# Building a tree from the outside in

A builder holds a tree under construction: the node that is open, its children so far, and the open
nodes around it.  The main definition is `Tree.Builder` with its operations `beginChild`, `endChild`
and `addLeaf`.
-/

namespace InfixArith.Tree

/-- A tree under construction. -/
structure Builder where
  /-- The name of the innermost open node. -/
  name : String
  /-- The finished children of that node, the last one first. -/
  done : List Tree
  /-- The names of the open nodes around it, with their finished children, the innermost first. -/
  outer : List (String × List Tree)

namespace Builder

/-- A root without children. -/
def start (name : String) : Builder :=
  ⟨name, [], []⟩

/-- Opens a new child of the open node. -/
def beginChild (name : String) (b : Builder) : Builder :=
  ⟨name, [], (b.name, b.done) :: b.outer⟩

/-- Adds a leaf to the open node. -/
def addLeaf (name : String) (b : Builder) : Builder :=
  { b with done := leaf name :: b.done }

/-- The open node as it stands, without the nodes around it. -/
def innermost (b : Builder) : Tree :=
  node b.name b.done.reverse

/-- Closes the open node and returns to the node around it; the root stays open. -/
def endChild (b : Builder) : Builder :=
  match b.outer with
  | [] => b
  | (name, done) :: outer => ⟨name, b.innermost :: done, outer⟩

/-- Whether the root is the open node. -/
def isAtRoot (b : Builder) : Bool :=
  b.outer.isEmpty

/-- Closes a finished child and all open nodes around it. -/
def closeAll (t : Tree) : List (String × List Tree) → Tree
  | [] => t
  | (name, done) :: outer => closeAll (node name (t :: done).reverse) outer

/-- The whole tree as it stands. -/
def build (b : Builder) : Tree :=
  closeAll b.innermost b.outer

end Builder

end InfixArith.Tree
