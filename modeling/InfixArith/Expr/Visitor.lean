import InfixArith.Expr.Basic

/-!
# Walks through an expression

A visitor says what is done at each kind of node, given the walk through the parts of that node,
which it may run, surround or leave out.  The main definitions are `Visitor`, whose fields walk on
unless they are given, `Expr.accept`, and four visitors that write down what they see:
`Visitor.events`, `Visitor.literals`, `Visitor.calls` and `Visitor.outermost`.
-/

namespace InfixArith

/-- What is done at each kind of node, on states of type `σ`. -/
structure Visitor (σ : Type) where
  /-- At a number. -/
  onLiteral : String → σ → σ := fun _ s => s
  /-- At a binary operator with its two parts and the walk through them. -/
  onBinary : BinaryOp → Expr → Expr → (walk : σ → σ) → σ → σ := fun _ _ _ walk => walk
  /-- At a factorial with its part and the walk through it. -/
  onFactorial : Expr → (walk : σ → σ) → σ → σ := fun _ walk => walk
  /-- At a function call with its argument and the walk through it. -/
  onCall : Func → Expr → (walk : σ → σ) → σ → σ := fun _ _ walk => walk

namespace Expr

/-- Walks through the expression from left to right, as the visitor says. -/
def accept {σ : Type} (v : Visitor σ) : Expr → σ → σ
  | literal text, s => v.onLiteral text s
  | binary op left right, s =>
    v.onBinary op left right (fun s' => right.accept v (left.accept v s')) s
  | factorial arg, s => v.onFactorial arg (fun s' => arg.accept v s') s
  | call f arg, s => v.onCall f arg (fun s' => arg.accept v s') s

/-- What a visitor wrote down, the first entry first. -/
def written (v : Visitor (List String)) (e : Expr) : List String :=
  (e.accept v []).reverse

end Expr

namespace Visitor

/-- Writes an entry before the walk through the parts and one after it. -/
def bracket (title : String) (walk : List String → List String) (out : List String) :
    List String :=
  ("exit " ++ title) :: walk (title :: out)

/-- Writes down each number, and the title of every other node before and after its parts. -/
def events : Visitor (List String) where
  onLiteral text out := text :: out
  onBinary op _ _ walk := bracket op.title walk
  onFactorial _ walk := bracket factorialTitle walk
  onCall f _ walk := bracket f.title walk

/-- Writes down the numbers. -/
def literals : Visitor (List String) where
  onLiteral text out := text :: out

/-- Writes down the names of the functions, an outer call before the calls in its argument. -/
def calls : Visitor (List String) where
  onCall f _ walk out := walk (f.name :: out)

/-- Writes down the binary expressions that are part of no other one, by the labels of their parts
around their symbol. -/
def outermost : Visitor (List String) where
  onBinary op left right _ out :=
    (left.label ++ String.singleton op.symbol ++ right.label) :: out

end Visitor

end InfixArith
