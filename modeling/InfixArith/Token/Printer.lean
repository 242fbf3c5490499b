import InfixArith.Token.Terminal

/-!
# Printing tokens

Tokens are printed one after the other, with a space on each side of `+`, `-`, `*` and `/` and
nowhere else; white space between tokens is not kept.  The main definition is `Token.printAll`.
-/

namespace InfixArith.Token

/-- Whether spaces are printed around the token. -/
def isSpaced (t : Token) : Bool :=
  match t.terminal with
  | .binary op => decide (op ≠ .exponentiate)
  | _ => false

/-- The text that is printed for one token. -/
def print (t : Token) : String :=
  if t.isSpaced then " " ++ t.text ++ " " else t.text

/-- The text that is printed for a list of tokens. -/
def printAll (ts : List Token) : String :=
  String.join (ts.map print)

end InfixArith.Token
