import InfixArith.Proofs.Parsing.Completion

/-!
# The parenthesis past the limit

A list of tokens nests too deep in one way only: after some of its tokens an operand is awaited, as
many parentheses are open as may be, and a group or a call opens one more.  Its steps are those of
the tokens before, and the step of the opening parenthesis (`nestingTooDeep_iff`).
-/

namespace InfixArith

variable {asked : Rule} {outer : Nat} {s s' : State} {t : Token} {ts q us : List Token}
  {steps steps' : List Step}

/-! ### What opens a level -/

/-- The tokens of an opener before its parenthesis. -/
def Opener.lead : Opener → List Token
  | group => []
  | call f => [.function f.name]

/-- The last token of an opener is its parenthesis. -/
theorem Opener.tokens_eq (o : Opener) : o.tokens = o.lead ++ [.opening] := by
  cases o <;> rfl

/-- No parenthesis comes before that of the opener. -/
theorem Opener.depth_lead (o : Opener) : Token.depth o.lead = 0 := by
  cases o with
  | group => exact Token.depth_nil
  | call f => exact Token.depth_function f.name

/-- Where an operand is awaited, every opener may stand. -/
theorem Opener.exists_takes_lead (o : Opener) (hs : s.Awaits .primary)
    (hroom : 0 ≤ s.room outer) :
    ∃ s' s'', Takes asked outer s o.lead [] s' ∧ Shift asked s' .opening [o.enterStep] s'' := by
  obtain ⟨fs, sum, product, position⟩ := s
  obtain ⟨power, rfl⟩ := hs
  cases o with
  | group => exact ⟨_, _, .nil hroom, .group⟩
  | call f => exact ⟨_, _, .of_shift (.name f) hroom nofun, .call⟩

/-- Only the name of a function leads to a state that waits for the parenthesis after it. -/
theorem Shift.eq_function_of_callee {f : Func} {power : Pending .power}
    (h : Shift asked s t steps s') (hs : s'.position = .callee f power) :
    t = .function f.name ∧ steps = [] ∧ s.Awaits .primary := by
  cases h with
  | name f' =>
    cases hs
    exact ⟨rfl, rfl, power, rfl⟩
  | _ => cases hs

/-- A state that waits for the parenthesis after a name is reached by this name, which stands where
an operand is awaited. -/
theorem Takes.exists_of_callee {f : Func} {power : Pending .power}
    (h : Takes asked outer .start ts steps s) (hs : s.position = .callee f power) :
    ∃ (q : List Token) (s₀ : State), ts = q ++ [.function f.name] ∧
      Takes asked outer .start q steps s₀ ∧ s₀.Awaits .primary := by
  rcases List.eq_nil_or_concat ts with rfl | ⟨q, t, hts⟩
  · -- Nothing is read before the start, which waits for an operand and not for a parenthesis.
    cases h.shifts
    cases hs
  · obtain rfl : ts = q ++ [t] := hts.trans List.concat_eq_append
    obtain ⟨steps₁, s₀, steps₂, hq, hlast, rfl⟩ := h.exists_of_append
    obtain ⟨rfl, rfl, hs₀⟩ := hlast.shifts.shift_of_single.eq_function_of_callee hs
    rw [List.append_nil]
    exact ⟨q, s₀, rfl, hq, hs₀⟩

/-- An opening parenthesis is taken after the tokens of its opener, and where these begin an operand
is awaited. -/
theorem Takes.exists_lead (h : Takes asked outer .start ts steps s)
    (ht : Shift asked s .opening steps' s') :
    ∃ (q : List Token) (o : Opener) (s₀ : State), ts = q ++ o.lead ∧
      Takes asked outer .start q steps s₀ ∧ s₀.Awaits .primary ∧ steps' = [o.enterStep] := by
  obtain ⟨o, power, hposition, rfl, -⟩ := ht.of_opening
  cases o with
  | group => exact ⟨ts, .group, s, (List.append_nil ts).symm, h, ⟨power, hposition⟩, rfl⟩
  | call f =>
    obtain ⟨q, s₀, hts, hq, hs₀⟩ := h.exists_of_callee hposition
    exact ⟨q, .call f, s₀, hts, hq, hs₀, rfl⟩

/-! ### Opening one parenthesis too many -/

/-- After some tokens as many parentheses may be opened as the limit has above their depth. -/
theorem Takes.room_eq (h : Takes asked 0 .start ts steps s) : s.room 0 = 128 - Token.depth ts := by
  rw [h.shifts.room, room_start]
  rfl

/-- An opener after tokens that leave no room ends the reading with its parenthesis. -/
theorem Takes.parse_of_room_eq_zero (h : Takes .expression 0 .start q steps s)
    (hs : s.Awaits .primary) (hfull : s.room 0 = 0) (o : Opener) (us : List Token) :
    parse (q ++ o.tokens ++ us) =
      ⟨steps ++ [o.enterStep], .invalid (.nestingTooDeep nestingLimit)⟩ := by
  have hopener : ∃ s' s'', Takes .expression 0 s o.lead [] s' ∧
      Shift .expression s' .opening [o.enterStep] s'' :=
    o.exists_takes_lead hs (Int.le_of_eq hfull.symm)
  obtain ⟨s', s'', hlead, hopen⟩ := hopener
  have hroom : s'.room 0 = 0 := by
    rw [hlead.shifts.room, hfull, o.depth_lead]
    rfl
  have hending : Ending .expression 0 .start (q ++ o.lead ++ .opening :: us) _ :=
    .tooDeep (h.append hlead) hopen hroom
  have hlist : q ++ o.tokens ++ us = q ++ o.lead ++ .opening :: us := by
    rw [o.tokens_eq]
    simp only [List.append_assoc, List.singleton_append]
  rw [hlist, hending.parse_eq, List.append_nil]
  rfl

/-- Tokens that nest too deep begin with tokens that leave no room where an operand is awaited, and
with an opener after them. -/
theorem exists_takes_of_nestingTooDeep {limit : Nat}
    (h : (parse ts).verdict = .invalid (.nestingTooDeep limit)) :
    ∃ (q : List Token) (o : Opener) (steps : List Step) (s : State), q ++ o.tokens <+: ts ∧
      Takes .expression 0 .start q steps s ∧ s.Awaits .primary ∧ s.room 0 = 0 := by
  obtain ⟨outcome, hending⟩ := exists_ending_start ts
  rw [hending.parse_eq] at h
  cases hending with
  | finished htakes =>
    have hfinish := whole_of_rest_nil.symm.trans h
    exact absurd hfinish (finish_ne_nestingTooDeep limit)
  | stuck _ _ =>
    have hrefusal := Verdict.invalid.inj (whole_refuse.symm.trans h)
    exact absurd hrefusal ((refusal_ne _ _).2 limit)
  | @tooDeep _ us _ _ _ _ htakes hopen hfull =>
    obtain ⟨q, o, s, rfl, hq, hs, -⟩ := htakes.exists_lead hopen
    have hroom : s.room 0 = 0 := by
      rw [htakes.room_eq, Token.depth_append, o.depth_lead] at hfull
      rw [hq.room_eq]
      omega
    have hprefix : q ++ o.tokens <+: q ++ o.lead ++ .opening :: us := by
      rw [o.tokens_eq, ← List.append_assoc, List.append_cons _ _ us]
      exact List.prefix_append _ _
    exact ⟨q, o, _, s, hprefix, hq, hs, hroom⟩

/-- A list nests too deep exactly when it begins with tokens that leave 128 parentheses open where
an operand is missing, and with the opening tokens of a group or a call after them.  The limit is
then 128, and the steps are those of the first tokens without the last one, the step of the opening
parenthesis, and the error. -/
theorem nestingTooDeep_iff :
    (∀ ts : List Token, (∃ limit, (parse ts).verdict = .invalid (.nestingTooDeep limit)) ↔
      ∃ (q : List Token) (o : Opener), q ++ o.tokens <+: ts ∧
        (parse q).verdict = .invalid .unexpectedEnd ∧ Token.depth q = 128) ∧
    ∀ (ts q : List Token) (o : Opener), q ++ o.tokens <+: ts →
      (parse q).verdict = .invalid .unexpectedEnd → Token.depth q = 128 →
        (parse ts).verdict = .invalid (.nestingTooDeep 128) ∧
          (parse ts).steps =
            (parse q).steps.dropLast ++ [o.enterStep, .failed (.nestingTooDeep 128)] := by
  have htooDeep : ∀ (ts q : List Token) (o : Opener), q ++ o.tokens <+: ts →
      (parse q).verdict = .invalid .unexpectedEnd → Token.depth q = 128 →
        (parse ts).verdict = .invalid (.nestingTooDeep 128) ∧
          (parse ts).steps =
            (parse q).steps.dropLast ++ [o.enterStep, .failed (.nestingTooDeep 128)] := by
    rintro ts q o ⟨us, rfl⟩ hend hdepth
    obtain ⟨steps, s, htakes, hs⟩ := verdict_parse_eq_unexpectedEnd_iff.1 hend
    have hfull : s.room 0 = 0 := by
      rw [htakes.room_eq, hdepth]
      rfl
    have hbefore : (parse q).steps.dropLast = steps := htakes.dropLast_steps_parse hs
    rw [htakes.parse_of_room_eq_zero hs hfull o us, hbefore]
    exact ⟨rfl, List.append_assoc steps _ _⟩
  refine ⟨fun ts => ⟨?_, ?_⟩, htooDeep⟩
  · rintro ⟨limit, h⟩
    obtain ⟨q, o, steps, s, hprefix, htakes, hs, hfull⟩ := exists_takes_of_nestingTooDeep h
    have hdepth : Token.depth q = 128 := by
      rw [htakes.room_eq] at hfull
      omega
    exact ⟨q, o, hprefix, verdict_parse_eq_unexpectedEnd_iff.2 ⟨steps, s, htakes, hs⟩, hdepth⟩
  · rintro ⟨q, o, hprefix, hend, hdepth⟩
    exact ⟨128, (htooDeep ts q o hprefix hend hdepth).1⟩

/-- After 128 open parentheses the one of a call is too many, whatever stands after it. -/
theorem nestingTooDeep_call :
    (parse (.replicate 128 .opening)).verdict = .invalid .unexpectedEnd ∧
      Token.depth (.replicate 128 .opening) = 128 ∧
      (parse (.replicate 128 .opening ++ [.function "cos", .opening, .closing])).verdict =
        .invalid (.nestingTooDeep 128) ∧
      (parse (.replicate 128 .opening ++ [.function "cos", .opening, .closing])).steps =
        (parse (.replicate 128 .opening)).steps.dropLast ++
          [.entered .cos, .failed (.nestingTooDeep 128)] := by
  have hend : (parse (.replicate 128 .opening)).verdict = .invalid .unexpectedEnd := by rfl
  have hdepth : Token.depth (.replicate 128 .opening) = 128 := Token.depth_replicate_opening 128
  have hprefix : List.replicate 128 Token.opening ++ (Opener.call .cos).tokens <+:
      .replicate 128 .opening ++ [.function "cos", .opening, .closing] := ⟨[.closing], by rfl⟩
  exact ⟨hend, hdepth, nestingTooDeep_iff.2 _ _ (.call .cos) hprefix hend hdepth⟩

end InfixArith
