import InfixArith.Text.WhiteSpace
import InfixArith.Token.Basic

/-!
# Scanning text

A text falls into pieces: the longest runs of digits, the longest runs of lower-case letters, and
single characters otherwise.  Each piece is white space, a token or an error, and scanning stops at
the first error.  The main definitions are `pieces`, `Reading.ofPiece`, `scan`, which keeps the
tokens before an error, and `tokenize`, which gives either all tokens or the error.
-/

namespace InfixArith

/-- Why a text has no tokens. -/
inductive LexError where
  /-- A character that no token contains. -/
  | unexpectedCharacter (c : Char)
  /-- A run of letters that is not the name of a function. -/
  | unexpectedIdentifier (name : String)
deriving DecidableEq

/-- The error in words. -/
def LexError.message : LexError → String
  | unexpectedCharacter c => "Unexpected character: " ++ String.singleton c
  | unexpectedIdentifier name => "Unexpected identifier: " ++ name

/-- Whether two characters that stand side by side belong to one piece. -/
def sameRun (c d : Char) : Bool :=
  (c.isDigit && d.isDigit) || (c.isLower && d.isLower)

/-- The runs of digits, the runs of letters and the single other characters, in order. -/
def pieces (cs : List Char) : List (List Char) :=
  cs.splitBy sameRun

/-- What one piece of text is read as. -/
inductive Reading where
  /-- White space. -/
  | blank
  /-- A token. -/
  | token (t : Token)
  /-- No token. -/
  | failure (e : LexError)
deriving DecidableEq

namespace Reading

/-- A run of letters is the name of a function or an error. -/
def ofName (name : String) : Reading :=
  match Func.ofName? name with
  | some f => .token (.function f.name)
  | none => .failure (.unexpectedIdentifier name)

/-- A character that is neither white space nor a digit nor a letter is a token or an error. -/
def ofSymbol (c : Char) : Reading :=
  if c ∈ Token.operatorSymbols then .token (.operator c)
  else if c = factorialSymbol then .token .factorial
  else .failure (.unexpectedCharacter c)

/-- The first character of a piece decides how the piece is read. -/
def ofPiece : List Char → Reading
  | [] => .blank
  | c :: cs =>
    if isWhiteSpace c then .blank
    else if c.isDigit then .token (.number (String.ofList (c :: cs)))
    else if c.isLower then ofName (String.ofList (c :: cs))
    else ofSymbol c

/-- The token of a reading, when it is one. -/
def token? : Reading → Option Token
  | token t => some t
  | _ => none

/-- The error of a reading, when it is one. -/
def error? : Reading → Option LexError
  | failure e => some e
  | _ => none

end Reading

/-- The result of scanning a text from its start to its end or to its first error. -/
structure Scan where
  /-- The tokens before the error, or all of them. -/
  tokens : List Token
  /-- The error that scanning stopped at. -/
  error? : Option LexError
deriving DecidableEq

/-- The scan of a text whose pieces are read so. -/
def Scan.ofReadings (rs : List Reading) : Scan where
  tokens := (rs.takeWhile fun r => r.error?.isNone).filterMap Reading.token?
  error? := rs.findSome? Reading.error?

/-- All tokens of a scan, or the error that it stopped at. -/
def Scan.result (s : Scan) : Except LexError (List Token) :=
  match s.error? with
  | none => .ok s.tokens
  | some e => .error e

/-- Scans the text as far as it can be split into tokens. -/
def scan (text : String) : Scan :=
  .ofReadings ((pieces text.toList).map Reading.ofPiece)

/-- The tokens of the text, or its first error. -/
def tokenize (text : String) : Except LexError (List Token) :=
  (scan text).result

end InfixArith
