/-!
# Fields of text

A field cuts a text to a largest number of characters, and fills it up to a least number.  The main
definitions are `Text.Field` and `Text.Field.apply`.
-/

namespace InfixArith.Text

/-- Where the text stands in a field that is wider than it. -/
inductive Alignment where
  /-- The text comes first. -/
  | left
  /-- The text comes last. -/
  | right
  /-- The text stands between two fillings, of which the first is the smaller one. -/
  | centre
deriving DecidableEq

/-- How a text is cut and filled. -/
structure Field where
  /-- The side on which the text stands. -/
  alignment : Alignment := .left
  /-- The character that fills the field. -/
  filler : Char := ' '
  /-- The least number of characters of the result. -/
  width : Nat := 0
  /-- The largest number of characters kept of the text, when there is one. -/
  limit : Option Nat := none
deriving DecidableEq

namespace Field

/-- The number of filling characters before the text, of `gap` in all. -/
def before (field : Field) (gap : Nat) : Nat :=
  match field.alignment with
  | .left => 0
  | .right => gap
  | .centre => gap / 2

/-- The part of the text that the field keeps. -/
def cut (field : Field) (cs : List Char) : List Char :=
  match field.limit with
  | none => cs
  | some n => cs.take n

/-- The text is cut first and filled afterwards, so the width counts what is left of it. -/
def apply (field : Field) (text : String) : String :=
  let kept := field.cut text.toList
  let gap := field.width - kept.length
  let before := field.before gap
  String.ofList
    (List.replicate before field.filler ++ kept ++ List.replicate (gap - before) field.filler)

end Field

/-- The text followed by spaces up to the given width. -/
def padRight (width : Nat) (text : String) : String :=
  Field.apply ⟨.left, ' ', width, none⟩ text

/-- The text after spaces up to the given width. -/
def padLeft (width : Nat) (text : String) : String :=
  Field.apply ⟨.right, ' ', width, none⟩ text

end InfixArith.Text
