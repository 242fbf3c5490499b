import InfixArith.Text.CharRange

/-!
# White space

The Unicode property `White_Space`, which separates tokens and is otherwise ignored.  The main
definition is `isWhiteSpace`, given by the ranges of the property.
-/

namespace InfixArith

/-- The ranges of the Unicode property `White_Space`. -/
def whiteSpaceRanges : List CharRange :=
  [⟨0x9, 0xD⟩, .single 0x20, .single 0x85, .single 0xA0, .single 0x1680, ⟨0x2000, 0x200A⟩,
    ⟨0x2028, 0x2029⟩, .single 0x202F, .single 0x205F, .single 0x3000]

/-- Whether the character has the Unicode property `White_Space`. -/
def isWhiteSpace (c : Char) : Bool :=
  CharRange.anyContains whiteSpaceRanges c

/-- A character is white space when it lies in one of the ranges. -/
theorem isWhiteSpace_iff (c : Char) :
    isWhiteSpace c = true ↔ ∃ r ∈ whiteSpaceRanges, r.first ≤ c.toNat ∧ c.toNat ≤ r.last :=
  CharRange.anyContains_iff whiteSpaceRanges c

end InfixArith
