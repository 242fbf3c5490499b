/-!
# Operators and functions

The operations of an arithmetic expression: five binary operators, the factorial, which is written
after its operand, and two functions.  The main definitions are `BinaryOp`, `Func` and
`factorialSymbol`; reading a symbol or a name gives back exactly the operator or function that is
written so.
-/

namespace InfixArith

/-- A binary operator. -/
inductive BinaryOp where
  | add
  | subtract
  | multiply
  | divide
  | exponentiate
deriving DecidableEq

namespace BinaryOp

/-- The character that the operator is written with. -/
def symbol : BinaryOp → Char
  | add => '+'
  | subtract => '-'
  | multiply => '*'
  | divide => '/'
  | exponentiate => '^'

/-- The operation in words. -/
def title : BinaryOp → String
  | add => "Add"
  | subtract => "Subtract"
  | multiply => "Multiply"
  | divide => "Divide"
  | exponentiate => "Exponentiate"

/-- The operator that is written with the character, when there is one. -/
def ofSymbol? : Char → Option BinaryOp
  | '+' => some add
  | '-' => some subtract
  | '*' => some multiply
  | '/' => some divide
  | '^' => some exponentiate
  | _ => none

/-- Reading the character of an operator gives back the operator. -/
@[simp]
theorem ofSymbol?_symbol (op : BinaryOp) : ofSymbol? op.symbol = some op := by
  cases op <;> rfl

/-- Reading a symbol finds the operator that is written with it, and nothing else. -/
theorem ofSymbol?_eq_some_iff {c : Char} {op : BinaryOp} :
    ofSymbol? c = some op ↔ c = op.symbol := by
  constructor
  · intro h
    unfold ofSymbol? at h
    split at h <;> cases h <;> rfl
  · rintro rfl
    exact ofSymbol?_symbol op

/-- Operators that are written with the same character are the same. -/
theorem symbol_injective {op op' : BinaryOp} (h : op.symbol = op'.symbol) : op = op' := by
  have hop := ofSymbol?_symbol op
  rw [h, ofSymbol?_symbol] at hop
  exact (Option.some.inj hop).symm

end BinaryOp

/-- The character that the factorial is written with. -/
def factorialSymbol : Char := '!'

/-- The factorial in words. -/
def factorialTitle : String := "Factorial"

/-- A function of one argument. -/
inductive Func where
  | sin
  | cos
deriving DecidableEq

namespace Func

/-- The name that the function is called by. -/
def name : Func → String
  | sin => "sin"
  | cos => "cos"

/-- The function in words. -/
def title : Func → String
  | sin => "Sin"
  | cos => "Cos"

/-- All functions. -/
def all : List Func := [sin, cos]

/-- The function that is called by the name, when there is one. -/
def ofName? (name : String) : Option Func :=
  if name = "sin" then some sin else if name = "cos" then some cos else none

/-- Reading the name of a function gives back the function. -/
@[simp]
theorem ofName?_name (f : Func) : ofName? f.name = some f := by
  cases f <;> decide

/-- Reading a name finds the function that is called by it, and nothing else. -/
theorem ofName?_eq_some_iff {name : String} {f : Func} :
    ofName? name = some f ↔ name = f.name := by
  constructor
  · intro h
    unfold ofName? at h
    split at h
    · next hsin => obtain rfl := Option.some.inj h; exact hsin
    · split at h
      · next hcos => obtain rfl := Option.some.inj h; exact hcos
      · cases h
  · rintro rfl
    exact ofName?_name f

end Func

end InfixArith
