import InfixArith.Text.Unprintable

/-!
# Quoted text

Text in double quotes, in which every character is visible: the quote, the backslash, the null
character, the tabulator and the line ends have short escapes, and every other unprintable character
is shown by its code point.  The main definition is `Text.quote`.
-/

namespace InfixArith.Text

/-- The code point of a character in lower-case hexadecimal digits between braces. -/
def escapeCodePoint (c : Char) : List Char :=
  ['\\', 'u', '\x7b'] ++ Nat.toDigits 16 c.toNat ++ ['\x7d']

/-- The characters that stand for `c` between quotes. -/
def escape (c : Char) : List Char :=
  if c = '\x00' then ['\\', '0']
  else if c = '\t' then ['\\', 't']
  else if c = '\r' then ['\\', 'r']
  else if c = '\n' then ['\\', 'n']
  else if c = '"' then ['\\', '"']
  else if c = '\\' then ['\\', '\\']
  else if isUnprintable c then escapeCodePoint c
  else [c]

/-- The text in double quotes, each of its characters escaped where needed. -/
def quote (text : String) : String :=
  String.ofList ('"' :: text.toList.flatMap escape ++ ['"'])

end InfixArith.Text
