import InfixArith.Expr.Operator
import InfixArith.Text.Quoted

/-!
# Tokens

A token is a class of text together with the text itself.  The main definitions are `TokenKind`,
`Token`, the tokens `Token.number`, `Token.operator`, `Token.function` and `Token.factorial`, and
the tests `Token.isOperator`, which compares the whole token, and `Token.isFactorial`, which looks
at the kind alone.
-/

namespace InfixArith

/-- The lexical class of a token. -/
inductive TokenKind where
  | number
  | operator
  | function
  | factorial
deriving DecidableEq

/-- The name of the class. -/
def TokenKind.label : TokenKind → String
  | number => "NUMBER"
  | operator => "OPERATOR"
  | function => "FUNCTION"
  | factorial => "FACTORIAL"

/-- A token: its class, and the text that it was read from. -/
structure Token where
  /-- The lexical class. -/
  kind : TokenKind
  /-- The exact text. -/
  text : String
deriving DecidableEq

namespace Token

/-- The characters that are operator tokens, parentheses among them. -/
def operatorSymbols : List Char :=
  ['+', '-', '*', '/', '^', '(', ')']

/-- A number token. -/
def number (digits : String) : Token :=
  ⟨.number, digits⟩

/-- An operator token, of one character. -/
def operator (symbol : Char) : Token :=
  ⟨.operator, String.singleton symbol⟩

/-- A function token. -/
def function (name : String) : Token :=
  ⟨.function, name⟩

/-- The factorial token as it is read. -/
def factorial : Token :=
  ⟨.factorial, String.singleton factorialSymbol⟩

/-- The opening parenthesis. -/
def opening : Token := operator '('

/-- The closing parenthesis. -/
def closing : Token := operator ')'

/-- Whether the token is the operator with this symbol, parentheses included. -/
def isOperator (t : Token) (symbol : Char) : Bool :=
  decide (t = operator symbol)

/-- Whether the token is a factorial, whatever its text. -/
def isFactorial (t : Token) : Bool :=
  decide (t.kind = .factorial)

/-- The token with its class and its quoted text. -/
def describe (t : Token) : String :=
  t.kind.label ++ " " ++ Text.quote t.text

/-- The test for a factorial looks at the kind of the token only. -/
theorem isFactorial_iff {t : Token} : t.isFactorial = true ↔ t.kind = .factorial := by
  simp [isFactorial]

end Token

end InfixArith
