import InfixArith.Proofs.Reading.Run
import Mathlib.Data.List.Basic

/-!
# The tokens that do not continue a state

Where an operand is awaited, a token continues the state when an operand may begin with it
(`Token.BeginsOperand`), and after the name of a function only the opening parenthesis does.  After
an operand it depends on the tokens read so far, and on these only by the last one: a factorial sign
and the binary operators go on (`Continues`), but `^` not after a factorial sign, and a closing
parenthesis does if one is open (`Shifts.stuck_iff`).
-/

namespace InfixArith

/-- An operand may begin with the token. -/
inductive Token.BeginsOperand : Token → Prop
  /-- A number is an operand. -/
  | number (text : String) : BeginsOperand (.number text)
  /-- A group begins with its parenthesis. -/
  | opening : BeginsOperand .opening
  /-- A call begins with the name of the function. -/
  | function (f : Func) : BeginsOperand (.function f.name)

/-- An expression with the tokens `es` may go on with the token. -/
inductive Continues (es : List Token) : Token → Prop
  /-- A factorial sign applies to what stands before it. -/
  | factorial (text : String) : Continues es ⟨.factorial, text⟩
  /-- A binary operator joins what stands before it to what follows, but `^` does not stand after a
  factorial sign. -/
  | binary (op : BinaryOp)
      (hop : op = .exponentiate → ∀ t ∈ es.getLast?, t.kind ≠ .factorial) :
      Continues es (.operator op.symbol)

variable {asked : Rule} {s s' : State} {t : Token} {ts es : List Token} {steps : List Step}
  {e : Expr} {f : Func} {power : Pending .power} {powers : Bool}

/-- Only the last token counts for what may follow. -/
theorem continues_append_iff (hes : es ≠ []) : Continues (ts ++ es) t ↔ Continues es t := by
  have hlast : (ts ++ es).getLast? = es.getLast? := List.getLast?_append_of_ne_nil ts hes
  constructor
  · rintro (text | ⟨op, hop⟩)
    · exact .factorial text
    · rw [hlast] at hop
      exact .binary op hop
  · rintro (text | ⟨op, hop⟩)
    · exact .factorial text
    · rw [← hlast] at hop
      exact .binary op hop

/-- A binary operator may follow every expression, but `^` none that ends in a factorial sign. -/
theorem continues_operator_iff (op : BinaryOp) :
    Continues es (.operator op.symbol) ↔
      (op = .exponentiate → ∀ t ∈ es.getLast?, t.kind ≠ .factorial) := by
  constructor
  · intro h
    generalize hsign : Token.operator op.symbol = t at h
    rcases h with text | ⟨op', hop⟩
    · cases hsign
    · obtain rfl : op = op' := Token.operator_symbol_injective hsign
      exact hop
  · exact .binary op

/-! ### Before an operand -/

/-- Where an operand is awaited, the tokens that do not go on are those with which no operand
begins. -/
theorem stuck_operand_iff (hs : s.position = .operand power) :
    Stuck asked s t ↔ ¬ t.BeginsOperand := by
  obtain ⟨fs, sum, product, position⟩ := s
  obtain rfl : position = .operand power := hs
  constructor
  · intro hstuck hbegins
    cases hbegins with
    | number text => exact hstuck _ _ (.number text)
    | opening => exact hstuck _ _ .group
    | function f => exact hstuck _ _ (.name f)
  · intro hbegins steps s' hshift
    cases hshift with
    | number text => exact hbegins (.number text)
    | group => exact hbegins .opening
    | name f => exact hbegins (.function f)

/-- After the name of a function only the opening parenthesis goes on. -/
theorem stuck_callee_iff (hs : s.position = .callee f power) :
    Stuck asked s t ↔ t ≠ .opening := by
  obtain ⟨fs, sum, product, position⟩ := s
  obtain rfl : position = .callee f power := hs
  constructor
  · rintro hstuck rfl
    exact hstuck _ _ .call
  · intro hopening steps s' hshift
    cases hshift with
    | call => exact hopening rfl

/-! ### After an operand -/

/-- A power may go on with `^` unless the last token was a factorial sign. -/
theorem Shift.powers_iff (h : Shift asked s t steps s') (hs' : s'.position = .operator e powers) :
    powers = true ↔ t.kind ≠ .factorial := by
  cases h with
  | number text =>
    cases hs'
    exact iff_of_true rfl nofun
  | factorial text =>
    cases hs'
    exact iff_of_false nofun (not_not_intro rfl)
  | close =>
    cases hs'
    exact iff_of_true rfl nofun
  | _ => cases hs'

/-- After an operand `^` may follow when the last token is no factorial sign. -/
theorem Shifts.powers_iff (h : Shifts asked s ts steps s') (hts : ts ≠ [])
    (hs' : s'.position = .operator e powers) :
    powers = true ↔ ∀ t ∈ ts.getLast?, t.kind ≠ .factorial := by
  obtain ⟨q, t, hconcat⟩ := (List.eq_nil_or_concat ts).resolve_left hts
  obtain rfl : ts = q ++ [t] := hconcat.trans List.concat_eq_append
  obtain ⟨_, s₁, _, -, hlast, -⟩ := h.exists_of_append
  have hpowers : powers = true ↔ t.kind ≠ .factorial := hlast.shift_of_single.powers_iff hs'
  rw [List.getLast?_concat, hpowers]
  simp

/-- After an operand every binary operator is taken that may follow the last token, and a primary is
awaited after it at the same level. -/
theorem exists_shift_operator {fs : List Frame} {sum : Pending .expression}
    {product : Pending .term} (op : BinaryOp) (hop : op = .exponentiate → powers = true) :
    ∃ steps s', Shift .expression ⟨fs, sum, product, .operator e powers⟩ (.operator op.symbol)
      steps s' ∧ s'.frames = fs ∧ ∃ power, s'.position = .operand power := by
  cases op with
  | add => exact ⟨_, _, .sum .add rfl (by simp), rfl, _, rfl⟩
  | subtract => exact ⟨_, _, .sum .subtract rfl (by simp), rfl, _, rfl⟩
  | multiply => exact ⟨_, _, .product .multiply rfl (by simp), rfl, _, rfl⟩
  | divide => exact ⟨_, _, .product .divide rfl (by simp), rfl, _, rfl⟩
  | exponentiate =>
    obtain rfl : powers = true := hop rfl
    exact ⟨_, _, .power .exponentiate rfl (by simp), rfl, _, rfl⟩

/-- After the tokens of an operand a token is refused when it does not continue them and is not a
closing parenthesis where one is open. -/
theorem Shifts.stuck_iff (h : Shifts .expression s ts steps s') (hts : ts ≠ [])
    (hs' : s'.position = .operator e powers) :
    Stuck .expression s' t ↔ ¬ Continues ts t ∧ (t = .closing → s'.frames = []) := by
  have hpowers : powers = true ↔ ∀ t ∈ ts.getLast?, t.kind ≠ .factorial := h.powers_iff hts hs'
  obtain ⟨fs, sum, product, position⟩ := s'
  obtain rfl : position = .operator e powers := hs'
  constructor
  · intro hstuck
    constructor
    · rintro (text | ⟨op, hop⟩)
      · exact hstuck _ _ (.factorial text (by simp))
      · obtain ⟨steps', s'', hshift, -⟩ := exists_shift_operator op fun heq => hpowers.2 (hop heq)
        exact hstuck steps' s'' hshift
    · rintro rfl
      cases fs with
      | nil => rfl
      | cons f fs => exact absurd .close (hstuck _ _)
  · rintro ⟨hcontinues, hclosing⟩ steps' s'' hshift
    cases hshift with
    | factorial text => exact hcontinues (.factorial text)
    | sum op hop => exact hcontinues (.binary op (by rintro rfl; cases hop))
    | product op hop => exact hcontinues (.binary op (by rintro rfl; cases hop))
    | power op hop => exact hcontinues (.binary op fun _ => hpowers.1 rfl)
    | close => cases hclosing rfl

end InfixArith
