import InfixArith.Proofs.Reading.Run

/-!
# States that take the same tokens

Which tokens a state takes depends on its shape alone: on the number of open levels, on what stands
next at the innermost one, and not on the operands that wait.  Two states are alike when they agree
in this (`State.Alike`).  What one of them takes, the other one takes too, and the states after it
are alike again (`Takes.exists_of_alike`), so a list of tokens may be moved from one state to the
other.
-/

namespace InfixArith

/-- The same tokens may stand at both positions. -/
inductive Position.Alike : Position → Position → Prop
  /-- At both a primary is awaited. -/
  | operand (power power' : Pending .power) : Alike (.operand power) (.operand power')
  /-- At both the name of a function waits for its parenthesis. -/
  | callee (f f' : Func) (power power' : Pending .power) :
      Alike (.callee f power) (.callee f' power')
  /-- At both an operator may stand, and `^` at both or at none. -/
  | operator (e e' : Expr) (powers : Bool) : Alike (.operator e powers) (.operator e' powers)

/-- The states differ in nothing but the openers of their levels and in the operands. -/
structure State.Alike (s s' : State) : Prop where
  /-- As many levels are open in both. -/
  length_frames : s.frames.length = s'.frames.length
  /-- The same tokens may stand next at the innermost level. -/
  position : s.position.Alike s'.position

variable {asked : Rule} {outer : Nat} {s s' s₁ : State} {t : Token} {ts : List Token}
  {steps : List Step} {e : Expr}

namespace State.Alike

/-- The tokens at the innermost level are read by the same rule. -/
theorem ruleWithin_eq (h : s.Alike s') (asked : Rule) :
    s.ruleWithin asked = s'.ruleWithin asked := by
  have hempty : s.frames.isEmpty = s'.frames.isEmpty := by
    rw [Bool.eq_iff_iff, List.isEmpty_iff_length_eq_zero, List.isEmpty_iff_length_eq_zero,
      h.length_frames]
  rw [State.ruleWithin, State.ruleWithin, hempty]

/-- As many parentheses may still be opened in states that are alike. -/
theorem room_eq (h : s.Alike s') (outer : Nat) : s.room outer = s'.room outer := by
  rw [State.room, State.room, h.length_frames]

end State.Alike

/-- A token that continues a state continues every state like it. -/
theorem Shift.exists_of_alike (h : Shift asked s t steps s₁) (hs : s.Alike s') :
    ∃ steps' s₁', Shift asked s' t steps' s₁' ∧ s₁.Alike s₁' := by
  have hrule : s.ruleWithin asked = s'.ruleWithin asked := hs.ruleWithin_eq asked
  obtain ⟨fs', sum', product', position'⟩ := s'
  obtain ⟨hframes, hposition⟩ := hs
  cases h with
  | number text =>
    cases hposition
    exact ⟨_, _, .number text, hframes, .operator _ _ true⟩
  | group =>
    cases hposition
    exact ⟨_, _, .group, congrArg Nat.succ hframes, .operand _ _⟩
  | name f =>
    cases hposition
    exact ⟨_, _, .name f, hframes, .callee f f _ _⟩
  | call =>
    cases hposition
    exact ⟨_, _, .call, congrArg Nat.succ hframes, .operand _ _⟩
  | factorial text hasked =>
    cases hposition
    rw [hrule] at hasked
    exact ⟨_, _, .factorial text hasked, hframes, .operator _ _ false⟩
  | sum op hop hasked =>
    cases hposition
    rw [hrule] at hasked
    exact ⟨_, _, .sum op hop hasked, hframes, .operand _ _⟩
  | product op hop hasked =>
    cases hposition
    rw [hrule] at hasked
    exact ⟨_, _, .product op hop hasked, hframes, .operand _ _⟩
  | power op hop hasked =>
    cases hposition
    rw [hrule] at hasked
    exact ⟨_, _, .power op hop hasked, hframes, .operand _ _⟩
  | close =>
    cases hposition
    -- The other state has a level to close because as many are open in it.
    cases fs' with
    | nil => cases hframes
    | cons f' fs' => exact ⟨_, _, .close, Nat.succ.inj hframes, .operator _ _ true⟩

/-- Tokens that continue a state continue every state like it, and the states after them are alike
again. -/
theorem Shifts.exists_of_alike (h : Shifts asked s ts steps s₁) (hs : s.Alike s') :
    ∃ steps' s₁', Shifts asked s' ts steps' s₁' ∧ s₁.Alike s₁' := by
  induction h generalizing s' with
  | nil s => exact ⟨[], s', .nil s', hs⟩
  | cons hshift _ ih =>
    obtain ⟨_, _, hshift', hnext⟩ := hshift.exists_of_alike hs
    obtain ⟨_, s₁', hrest', halike⟩ := ih hnext
    exact ⟨_, s₁', .cons hshift' hrest', halike⟩

/-- Tokens that are taken in a state are taken in every state like it. -/
theorem Takes.exists_of_alike (h : Takes asked outer s ts steps s₁) (hs : s.Alike s') :
    ∃ steps' s₁', Takes asked outer s' ts steps' s₁' ∧ s₁.Alike s₁' := by
  obtain ⟨steps', s₁', hshifts, halike⟩ := h.shifts.exists_of_alike hs
  have hwithin : Token.NestsWithin (s'.room outer) ts := by
    rw [← hs.room_eq]
    exact h.within
  exact ⟨steps', s₁', ⟨hshifts, hwithin⟩, halike⟩

end InfixArith
