import InfixArith.Derivation.Basic
import InfixArith.Token.Printer
import InfixArith.Token.Scan

/-!
# Analysis of a text

The main definitions are `Analysis`, the tokens of a text and their derivation, and `analyze`.  A
text that has no tokens has no analysis; a text whose tokens are no expression has one, in which the
derivation tells the error.
-/

namespace InfixArith

/-- The tokens of a text and their derivation. -/
structure Analysis where
  /-- The tokens, in the order of the text. -/
  tokens : List Token
  /-- The check of the tokens against the grammar. -/
  derivation : Derivation
deriving DecidableEq

/-- Splits the text into tokens and checks them against the grammar. -/
def analyze (text : String) : Except LexError Analysis :=
  (tokenize text).map fun ts => ⟨ts, parse ts⟩

end InfixArith
