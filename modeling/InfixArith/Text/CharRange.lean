/-!
# Classes of characters

A class of characters is given by the code point ranges of a Unicode property.  The main definitions
are `CharRange`, a closed range of code points, and `CharRange.anyContains`, which tells whether one
of several ranges holds a character.
-/

namespace InfixArith

/-- A closed range of code points. -/
structure CharRange where
  /-- The least code point of the range. -/
  first : Nat
  /-- The greatest code point of the range. -/
  last : Nat
deriving DecidableEq

namespace CharRange

/-- The range that holds one code point. -/
def single (code : Nat) : CharRange :=
  ⟨code, code⟩

/-- Whether the range holds the character. -/
def contains (r : CharRange) (c : Char) : Bool :=
  decide (r.first ≤ c.toNat) && decide (c.toNat ≤ r.last)

/-- Whether one of the ranges holds the character. -/
def anyContains (rs : List CharRange) (c : Char) : Bool :=
  rs.any (·.contains c)

/-- A range holds the characters from its first code point to its last one. -/
theorem contains_iff (r : CharRange) (c : Char) :
    r.contains c = true ↔ r.first ≤ c.toNat ∧ c.toNat ≤ r.last := by
  simp [contains]

/-- Several ranges hold the characters that one of them holds. -/
theorem anyContains_iff (rs : List CharRange) (c : Char) :
    anyContains rs c = true ↔ ∃ r ∈ rs, r.first ≤ c.toNat ∧ c.toNat ≤ r.last := by
  simp [anyContains, contains_iff]

end CharRange

end InfixArith
