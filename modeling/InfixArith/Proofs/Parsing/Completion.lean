import InfixArith.Proofs.Parsing.Characterization
import Mathlib.Tactic.TFAE

/-!
# Tokens that end before an operand

A list of tokens ends unexpectedly when all of its tokens are taken and the state that they lead to
waits for an operand (`verdict_parse_eq_unexpectedEnd_iff`).  These are the lists that some tokens
after a number make valid, and the number and a closing parenthesis for each open one are enough for
it (`unexpectedEnd_tfae`).
-/

namespace InfixArith

variable {asked : Rule} {outer : Nat} {s s' : State} {t : Token} {ts us : List Token} {e : Expr}
  {steps : List Step}

/-! ### The error at the end of the tokens -/

/-- The error of a list in which the state does not go on with the token. -/
def State.refusal (s : State) (t : Token) : ParseError :=
  match s.position, s.frames with
  | .operand _, _ => .unexpectedToken t
  | .callee _ _, _ => .functionWithoutParenthesis
  | .operator _ _, [] => .trailingTokens
  | .operator _ _, f :: _ => f.opener.unclosed

/-- When a token is refused, the verdict on the whole list is the error of the state at this token.
-/
theorem whole_refuse :
    Outcome.whole ⟨(s.refuse t).2, t :: us, steps⟩ = .invalid (s.refusal t) := by
  obtain ⟨fs, sum, product, position⟩ := s
  cases position with
  | operand power => rfl
  | callee f power => rfl
  | operator e powers => cases fs <;> rfl

/-- The error for a missing parenthesis is neither that of an unexpected end nor that of the limit.
-/
theorem unclosed_ne (o : Opener) :
    o.unclosed ≠ .unexpectedEnd ∧ ∀ limit, o.unclosed ≠ .nestingTooDeep limit := by
  cases o <;> simp [Opener.unclosed]

/-- A token that is not taken neither ends the tokens nor opens too many parentheses. -/
theorem refusal_ne (s : State) (t : Token) :
    s.refusal t ≠ .unexpectedEnd ∧ ∀ limit, s.refusal t ≠ .nestingTooDeep limit := by
  obtain ⟨fs, sum, product, position⟩ := s
  cases position with
  | operand power => simp [State.refusal]
  | callee f power => simp [State.refusal]
  | operator e powers =>
    cases fs with
    | nil => simp [State.refusal]
    | cons f fs => exact unclosed_ne f.opener

/-- The end of the tokens is unexpected for the states that wait for an operand. -/
theorem finish_eq_unexpectedEnd_iff :
    s.finish.2 = .invalid .unexpectedEnd ↔ s.Awaits .primary := by
  obtain ⟨fs, sum, product, position⟩ := s
  cases position with
  | operand power => exact iff_of_true rfl ⟨power, rfl⟩
  | callee f power => exact iff_of_false nofun nofun
  | operator e powers =>
    refine iff_of_false (fun h => ?_) nofun
    cases fs with
    | nil => cases h
    | cons f fs => exact (unclosed_ne f.opener).1 (Verdict.invalid.inj h)

/-- The end of the tokens does not nest too deep. -/
theorem finish_ne_nestingTooDeep (limit : Nat) : s.finish.2 ≠ .invalid (.nestingTooDeep limit) := by
  obtain ⟨fs, sum, product, position⟩ := s
  intro h
  cases position with
  | operand power => cases h
  | callee f power => cases h
  | operator e powers =>
    cases fs with
    | nil => cases h
    | cons f fs => exact (unclosed_ne f.opener).2 limit (Verdict.invalid.inj h)

/-- The end of the tokens is unexpected where they lead to a state that waits for an operand. -/
theorem verdict_parse_eq_unexpectedEnd_iff :
    (parse ts).verdict = .invalid .unexpectedEnd ↔
      ∃ steps s, Takes .expression 0 .start ts steps s ∧ s.Awaits .primary := by
  constructor
  · intro h
    obtain ⟨o, ho⟩ := exists_ending_start ts
    rw [ho.parse_eq] at h
    cases ho with
    | finished htakes =>
      have hfinish := whole_of_rest_nil.symm.trans h
      exact ⟨_, _, htakes, finish_eq_unexpectedEnd_iff.1 hfinish⟩
    | stuck _ _ =>
      have hrefusal := Verdict.invalid.inj (whole_refuse.symm.trans h)
      exact absurd hrefusal (refusal_ne _ _).1
    | tooDeep _ _ _ => cases h
  · rintro ⟨steps, s, htakes, hs⟩
    rw [htakes.parse_eq]
    exact finish_eq_unexpectedEnd_iff.2 hs

/-- Before the error at the end of the tokens stand the steps of the tokens. -/
theorem Takes.dropLast_steps_parse (h : Takes .expression 0 .start ts steps s)
    (hs : s.Awaits .primary) : (parse ts).steps.dropLast = steps := by
  obtain ⟨power, hposition⟩ := hs
  rw [Derivation.dropLast_steps, h.parse_eq, State.finish, hposition]
  exact List.append_nil steps

/-! ### Open parentheses -/

/-- As many parentheses are open after some tokens as these have opened and not closed. -/
theorem Takes.depth_eq (h : Takes asked outer .start ts steps s) :
    Token.depth ts = s.frames.length := by
  have hlength := h.shifts.length_frames
  rw [hlength]
  exact (Int.zero_add _).symm

/-- A number is an operand. -/
theorem exists_takes_number (hs : s.Awaits .primary) (hroom : 0 ≤ s.room outer) (text : String) :
    ∃ steps e,
      Takes asked outer s [.number text] steps { s with position := .operator e true } := by
  obtain ⟨fs, sum, product, position⟩ := s
  obtain ⟨power, rfl⟩ := hs
  exact ⟨_, _, .of_shift (.number text) hroom nofun⟩

/-- After an operand, one closing parenthesis for each open level makes an expression. -/
theorem exists_takes_closings (hroom : 0 ≤ s.room outer) {powers : Bool}
    (hs : s.position = .operator e powers) :
    ∃ steps s' e', Takes asked outer s (.replicate s.frames.length .closing) steps s' ∧
      s'.finish.2 = .valid e' := by
  obtain ⟨fs, sum, product, position⟩ := s
  obtain rfl : position = .operator e powers := hs
  induction fs generalizing sum product e powers with
  | nil => exact ⟨[], _, _, .nil hroom, rfl⟩
  | cons f fs ih =>
    have hclose : Takes asked outer ⟨f :: fs, sum, product, .operator e powers⟩ [.closing] _ _ :=
      .of_shift .close hroom nofun
    obtain ⟨steps, s', e', htakes, he'⟩ := ih _ _ hclose.room_nonneg
    exact ⟨_, s', e', hclose.append htakes, he'⟩

/-! ### Completing a list of tokens -/

/-- These are the same: the tokens end where an operand is missing; with the number and some tokens
after it they are valid; with the number and a closing parenthesis for each open one they are valid,
and no more parentheses are open than may be. -/
theorem unexpectedEnd_tfae (ts : List Token) (text : String) :
    [(parse ts).verdict = .invalid .unexpectedEnd,
      ∃ us, (parse (ts ++ [.number text] ++ us)).isValid = true,
      0 ≤ Token.depth ts ∧ Token.depth ts ≤ 128 ∧
        (parse (ts ++ [.number text] ++
          .replicate (Token.depth ts).toNat .closing)).isValid = true].TFAE := by
  tfae_have 1 → 3 := by
    intro h
    obtain ⟨steps, s, htakes, hs⟩ := verdict_parse_eq_unexpectedEnd_iff.1 h
    have hdepth : Token.depth ts = s.frames.length := htakes.depth_eq
    have hroom : 0 ≤ s.room 0 := htakes.room_nonneg
    have hlimit : (s.frames.length : Int) ≤ 128 := by
      simp only [State.room, nestingLimit] at hroom
      omega
    obtain ⟨_, e, hnumber⟩ := exists_takes_number hs hroom text
    obtain ⟨_, s', e', hclosings, hs'⟩ := exists_takes_closings hnumber.room_nonneg rfl
    have hcount : (Token.depth ts).toNat = s.frames.length := by omega
    have hall := (htakes.append hnumber).append hclosings
    refine ⟨by omega, by omega, Verdict.isValid_iff.2 ⟨e', ?_⟩⟩
    rw [hcount, hall.parse_eq, hs']
  tfae_have 3 → 2 := fun h => ⟨_, h.2.2⟩
  tfae_have 2 → 1 := by
    rintro ⟨us, h⟩
    obtain ⟨e, he⟩ := Verdict.isValid_iff.1 h
    obtain ⟨_, _, hall, -⟩ := verdict_parse_eq_valid_iff_takes.1 he
    obtain ⟨_, _, _, hbefore, -, -⟩ := hall.exists_of_append
    obtain ⟨_, s, _, htakes, hnumber, -⟩ := hbefore.exists_of_append
    cases hnumber.shifts with
    | cons hshift _ =>
      have hs : s.Awaits .primary := (hshift.positions_of_number rfl).1
      exact verdict_parse_eq_unexpectedEnd_iff.2 ⟨_, s, htakes, hs⟩
  tfae_finish

/-- An operand is missing after the sign in parentheses, and nothing else is. -/
example :
    (parse [.opening, .number "1", .operator '+']).verdict = .invalid .unexpectedEnd ∧
      (parse [.opening, .number "1", .operator '+', .number "2", .closing]).isValid = true := by
  constructor <;> rfl

end InfixArith
