import InfixArith.Proofs.Parsing.NestingLimit
import InfixArith.Proofs.Reading.Refusal

/-!
# Where a reading stops

A reading that does not nest too deep takes some tokens and then stops, because no token is left or
because the next one is refused (`Stops`).  The state that the tokens lead to and the tokens that
are left determine the derivation (`Takes.parse_of_stops`), so each verdict but the one on the limit
has a description by such a state (`verdict_parse_eq_iff_stops`).
-/

namespace InfixArith

/-- None of the tokens is taken: there is none, or the first one does not continue the state. -/
def Stops (s : State) (us : List Token) : Prop :=
  ∀ t ∈ us.head?, Stuck .expression s t

/-- The verdict on a list of which the tokens `us` are left over. -/
def State.verdictBefore (s : State) : List Token → Verdict
  | [] => s.finish.2
  | t :: _ => .invalid (s.refusal t)

variable {s : State} {ts q us : List Token} {t : Token} {steps : List Step} {v : Verdict}
  {f : Func} {power : Pending .power}

/-- A reading stops before a token that does not continue the state. -/
theorem stops_cons_iff : Stops s (t :: us) ↔ Stuck .expression s t := by
  constructor
  · intro h
    exact h t rfl
  · intro hstuck u hu
    obtain rfl : t = u := Option.some.inj hu
    exact hstuck

/-- Where the reading stops, only the state and what is left of the tokens count. -/
theorem Takes.parse_of_stops (h : Takes .expression 0 .start q steps s) (hus : Stops s us) :
    parse (q ++ us) = ⟨steps ++ s.finish.1, s.verdictBefore us⟩ := by
  cases us with
  | nil =>
    rw [List.append_nil]
    exact h.parse_eq
  | cons t us =>
    have hending : Ending .expression 0 .start (q ++ t :: us)
        ⟨(s.refuse t).2, t :: us, steps ++ (s.refuse t).1⟩ := .stuck h (stops_cons_iff.1 hus)
    rw [hending.parse_eq, whole_refuse, refuse_fst]
    rfl

/-- A reading takes some tokens and stops, or it nests too deep. -/
theorem exists_stops_or_nestingTooDeep (ts : List Token) :
    (∃ q us steps s, ts = q ++ us ∧ Takes .expression 0 .start q steps s ∧ Stops s us) ∨
      (parse ts).verdict = .invalid (.nestingTooDeep nestingLimit) := by
  obtain ⟨o, ho⟩ := exists_ending_start ts
  cases ho with
  | finished htakes => exact .inl ⟨_, [], _, _, (List.append_nil _).symm, htakes, nofun⟩
  | stuck htakes hstuck => exact .inl ⟨_, _, _, _, rfl, htakes, stops_cons_iff.2 hstuck⟩
  | tooDeep htakes hopen hfull =>
    refine .inr ?_
    rw [(Ending.tooDeep htakes hopen hfull).parse_eq]
    rfl

/-- A verdict other than that of the limit is the one of the state in which the reading stops. -/
theorem verdict_parse_eq_iff_stops (hv : v ≠ .invalid (.nestingTooDeep nestingLimit)) :
    (parse ts).verdict = v ↔
      ∃ q us steps s, ts = q ++ us ∧ Takes .expression 0 .start q steps s ∧ Stops s us ∧
        s.verdictBefore us = v := by
  constructor
  · intro h
    rcases exists_stops_or_nestingTooDeep ts with ⟨q, us, steps, s, rfl, htakes, hstops⟩ | hdeep
    · rw [htakes.parse_of_stops hstops] at h
      exact ⟨q, us, steps, s, rfl, htakes, hstops, h⟩
    · exact absurd (h.symm.trans hdeep) hv
  · rintro ⟨q, us, steps, s, rfl, htakes, hstops, hverdict⟩
    rw [htakes.parse_of_stops hstops, hverdict]

/-! ### The errors at the end of a reading -/

/-- After an operand inside parentheses the error is that of the innermost open one. -/
theorem verdictBefore_operator {fr : Frame} {fs : List Frame} {sum : Pending .expression}
    {product : Pending .term} {e : Expr} {powers : Bool} :
    (State.mk (fr :: fs) sum product (.operator e powers)).verdictBefore us =
      .invalid fr.opener.unclosed := by
  cases us <;> rfl

/-- After the name of a function only its parenthesis may stand. -/
theorem verdictBefore_callee (hs : s.position = .callee f power) :
    s.verdictBefore us = .invalid .functionWithoutParenthesis := by
  cases us with
  | nil => rw [State.verdictBefore, State.finish, hs]
  | cons t us => rw [State.verdictBefore, State.refusal, hs]

end InfixArith
