import InfixArith.Proofs.Parsing.Stopping

/-!
# Levels that stay open

A parenthesis is missing after the tokens of an expression that stand at a level of their own, when
the next token neither continues this expression nor closes the level (`OpenLevel`).  A state that
has read an operand inside parentheses (`State.IsInside`) is reached by such tokens and by no others
(`OpenLevel.exists_takes`, `Takes.exists_openLevel`), which gives the lists with one of the two
errors for a missing parenthesis, and their steps (`unclosed_iff`).
-/

namespace InfixArith

/-- An operand has been read at a level that the opener has opened. -/
inductive State.IsInside (o : Opener) : State → Prop
  /-- The innermost open parenthesis is that of the opener. -/
  | operator {fs : List Frame} {sum sum' : Pending .expression} {product product' : Pending .term}
      {power : Pending .power} {e : Expr} {powers : Bool} :
      IsInside o ⟨⟨o, sum, product, power⟩ :: fs, sum', product', .operator e powers⟩

/-- Between the tokens `q` and `us`, the expression `es` stands at a level of its own that is not
closed. -/
structure OpenLevel (q es us : List Token) : Prop where
  /-- An operand is missing before the level. -/
  missing : (parse q).verdict = .invalid .unexpectedEnd
  /-- The tokens at the level are an expression. -/
  isValid : (parse es).isValid = true
  /-- What follows neither continues the expression nor closes the level. -/
  stops : ∀ t ∈ us.head?, ¬ Continues es t ∧ t ≠ .closing
  /-- The parentheses around the level and in it are not too many. -/
  within : Token.depth q + 1 + Token.maxDepth es ≤ 128

variable {s s' : State} {ts q es us : List Token} {steps : List Step} {o : Opener}

/-! ### Reading an expression inside parentheses -/

/-- An expression after its opener is read at the level that this opens, with all its steps. -/
theorem Phrase.exists_shifts_inside (p : Phrase .expression) (o : Opener) (hs : s.Awaits .primary) :
    ∃ taken s', Shifts .expression s (o.tokens ++ p.tokens) taken s' ∧ s'.IsInside o ∧
      taken ++ s'.finish.1 = o.enterStep :: p.steps := by
  obtain ⟨fs, sum, product, position⟩ := s
  obtain ⟨power, rfl⟩ := hs
  obtain ⟨taken, s', hshifts, ⟨sum', product', e', powers, -, rfl⟩, hsteps⟩ :=
    p.exists_shifts ⟨⟨o, sum, product, power⟩ :: fs, none, none, .operand none⟩ ⟨rfl, rfl, rfl⟩
  have hfinish : taken ++ (product'.steps ++ sum'.steps) = p.steps := hsteps
  refine ⟨_, _, o.shifts_tokens.append hshifts, .operator, ?_⟩
  rw [← hfinish]
  rfl

/-- A level that is still open has been opened where an operand is awaited. -/
theorem Shifts.awaits_of_isInside (p : Phrase .expression)
    (h : Shifts .expression s (o.tokens ++ p.tokens) steps s') (hs' : s'.IsInside o) :
    s.Awaits .primary := by
  cases o with
  | call f =>
    cases h with
    | cons hname _ => exact (hname.positions_of_function rfl).1
  | group =>
    cases h with
    | cons hopen hrest =>
      obtain ⟨o', power, hposition, -, rfl⟩ := hopen.of_opening
      -- The expression leaves the opener of its level as it is, so this is that of a group.
      have hfresh : (State.mk (⟨o', s.sum, s.product, power⟩ :: s.frames) none none
          (.operand none)).Awaits .expression := ⟨rfl, rfl, rfl⟩
      obtain ⟨_, _, hshifts, ⟨_, _, _, _, -, rfl⟩, -⟩ := p.exists_shifts _ hfresh
      obtain ⟨-, rfl⟩ := hshifts.unique hrest
      cases hs'
      exact ⟨power, hposition⟩

/-- The tokens up to a state inside parentheses are those before the innermost opener, the opener
and an expression. -/
theorem Shifts.exists_of_isInside (h : Shifts .expression .start ts steps s) (hs : s.IsInside o) :
    ∃ (q : List Token) (p : Phrase .expression), ts = q ++ (o.tokens ++ p.tokens) := by
  -- The innermost frame accounts for the opener and what waits before it, and what has been read
  -- since then is an expression.
  obtain ⟨outside, sum, product, last, houtside, hsum, hproduct, hlast, hts⟩ :=
    h.readFrom readFrom_start
  cases hs
  obtain ⟨p, htokens, -⟩ := (derives_total hsum hproduct hlast).exists_phrase
  cases houtside with
  | @cons _ _ outside' sum' product' power' =>
    refine ⟨outside' ++ sum' ++ product' ++ power', p, ?_⟩
    rw [htokens, ← List.nil_append ts, hts]
    simp only [List.append_assoc]

/-! ### Room for one more level -/

/-- After an opener there is room for one parenthesis less. -/
theorem nestsWithin_opener_append_iff {k : Int} (o : Opener) :
    Token.NestsWithin k (o.tokens ++ es) ↔ Token.NestsWithin (k - 1) es := by
  have hopening : Token.NestsWithin k (.opening :: es) ↔ Token.NestsWithin (k - 1) es := by
    rw [Token.nestsWithin_cons, Token.depth_opening]
    refine and_iff_right_of_imp fun hes => ?_
    have hnonneg : 0 ≤ k - 1 := hes.nonneg
    omega
  cases o with
  | group => exact hopening
  | call f =>
    have hname : (Opener.call f).tokens ++ es = .function f.name :: .opening :: es := rfl
    rw [hname, Token.nestsWithin_cons, Token.depth_function, Int.sub_zero]
    exact (and_iff_right_of_imp Token.NestsWithin.nonneg).trans hopening

/-- The room after some tokens is enough for a level with an expression at it. -/
theorem Takes.nestsWithin_opener_iff (h : Takes .expression 0 .start q steps s) (o : Opener) :
    Token.NestsWithin (s.room 0) (o.tokens ++ es) ↔
      Token.depth q + 1 + Token.maxDepth es ≤ 128 := by
  rw [nestsWithin_opener_append_iff, Token.nestsWithin_iff_maxDepth_le, h.room_eq]
  omega

/-! ### Open levels -/

/-- Inside parentheses the reading stops before what neither continues the expression at this level
nor closes the level. -/
theorem Shifts.stops_iff_of_isInside (h : Shifts .expression s (ts ++ es) steps s')
    (hes : es ≠ []) (hs' : s'.IsInside o) :
    Stops s' us ↔ ∀ t ∈ us.head?, ¬ Continues es t ∧ t ≠ .closing := by
  have hstuck : ∀ t, Stuck .expression s' t ↔ ¬ Continues es t ∧ t ≠ .closing := by
    intro t
    have hne : ts ++ es ≠ [] := List.append_ne_nil_of_right_ne_nil ts hes
    cases hs'
    rw [h.stuck_iff hne rfl, continues_append_iff hes]
    simp
  simp only [Stops, hstuck]

/-- A valid list has tokens. -/
theorem ne_nil_of_isValid (h : (parse es).isValid = true) : es ≠ [] := by
  rintro rfl
  cases h

/-- An open level is read up to what follows it, with the steps of the tokens before it, of the
opener and of the expression. -/
theorem OpenLevel.exists_takes (h : OpenLevel q es us) (o : Opener) :
    ∃ steps s, Takes .expression 0 .start (q ++ (o.tokens ++ es)) steps s ∧ s.IsInside o ∧
      Stops s us ∧
        steps ++ s.finish.1 =
          (parse q).steps.dropLast ++ o.enterStep :: (parse es).steps.dropLast := by
  obtain ⟨steps, s, hq, hs⟩ := verdict_parse_eq_unexpectedEnd_iff.1 h.missing
  obtain ⟨e, he⟩ := Verdict.isValid_iff.1 h.isValid
  obtain ⟨p, rfl, -, hparse, -⟩ := exists_phrase_of_valid he
  obtain ⟨taken, s', hshifts, hinside, htaken⟩ := p.exists_shifts_inside o hs
  have hlevel : Takes .expression 0 s (o.tokens ++ p.tokens) taken s' :=
    ⟨hshifts, (hq.nestsWithin_opener_iff o).2 h.within⟩
  have hstops : Stops s' us :=
    (hshifts.stops_iff_of_isInside (ne_nil_of_isValid h.isValid) hinside).2 h.stops
  refine ⟨_, s', hq.append hlevel, hinside, hstops, ?_⟩
  rw [List.append_assoc, htaken, hq.dropLast_steps_parse hs, hparse, Derivation.dropLast_steps]

/-- Where a reading stops inside parentheses, it leaves the innermost level open. -/
theorem Takes.exists_openLevel (h : Takes .expression 0 .start ts steps s) (hs : s.IsInside o)
    (hus : Stops s us) : ∃ q es, ts = q ++ (o.tokens ++ es) ∧ OpenLevel q es us := by
  obtain ⟨q, p, rfl⟩ := h.shifts.exists_of_isInside hs
  obtain ⟨taken, s₀, _, hq, hlevel, -⟩ := h.exists_of_append
  have hs₀ : s₀.Awaits .primary := hlevel.shifts.awaits_of_isInside p hs
  have hwithin : Token.depth q + 1 + Token.maxDepth p.tokens ≤ 128 :=
    (hq.nestsWithin_opener_iff o).1 hlevel.within
  have hp : Token.NestsWithin nestingLimit p.tokens := by
    have hroom : 0 ≤ Token.depth q := by
      rw [hq.depth_eq]
      exact Int.natCast_nonneg _
    refine Token.nestsWithin_iff_maxDepth_le.2 ?_
    simp only [nestingLimit]
    omega
  have hvalid : (parse p.tokens).isValid = true :=
    Verdict.isValid_iff.2 ⟨p.expr, by rw [p.parse_tokens hp]⟩
  refine ⟨q, p.tokens, rfl, verdict_parse_eq_unexpectedEnd_iff.2 ⟨taken, s₀, hq, hs₀⟩, hvalid, ?_,
    hwithin⟩
  exact (hlevel.shifts.stops_iff_of_isInside (ne_nil_of_isValid hvalid) hs).1 hus

/-! ### The errors of a level that stays open -/

/-- A reading that stops inside a level fails because the level is not closed. -/
theorem State.IsInside.verdictBefore (hs : s.IsInside o) :
    s.verdictBefore us = .invalid o.unclosed := by
  cases hs
  exact verdictBefore_operator

/-- The error of a missing parenthesis arises inside parentheses only. -/
theorem exists_isInside_of_verdictBefore (h : s.verdictBefore us = .invalid o.unclosed) :
    ∃ o', s.IsInside o' ∧ o'.unclosed = o.unclosed := by
  obtain ⟨fs, sum, product, position⟩ := s
  cases position with
  | operand power => cases us <;> cases o <;> cases h
  | callee f power => cases us <;> cases o <;> cases h
  | operator e powers =>
    cases fs with
    | nil => cases us <;> cases o <;> cases h
    | cons fr fs =>
      rw [verdictBefore_operator] at h
      exact ⟨fr.opener, .operator, Verdict.invalid.inj h⟩

/-- A parenthesis is missing when a level of its kind stays open. -/
theorem verdict_parse_eq_unclosed_iff :
    (parse ts).verdict = .invalid o.unclosed ↔
      ∃ (o' : Opener) (q es us : List Token), o'.unclosed = o.unclosed ∧
        ts = q ++ (o'.tokens ++ es) ++ us ∧ OpenLevel q es us := by
  have hne : Verdict.invalid o.unclosed ≠ .invalid (.nestingTooDeep nestingLimit) :=
    fun h => (unclosed_ne o).2 _ (Verdict.invalid.inj h)
  rw [verdict_parse_eq_iff_stops hne]
  constructor
  · rintro ⟨ts, us, steps, s, rfl, htakes, hstops, hverdict⟩
    obtain ⟨o', hs, ho⟩ := exists_isInside_of_verdictBefore hverdict
    obtain ⟨q, es, rfl, hlevel⟩ := htakes.exists_openLevel hs hstops
    exact ⟨o', q, es, us, ho, rfl, hlevel⟩
  · rintro ⟨o', q, es, us, ho, rfl, hlevel⟩
    obtain ⟨steps, s, htakes, hs, hstops, -⟩ := hlevel.exists_takes o'
    exact ⟨_, us, steps, s, rfl, htakes, hstops, ho ▸ hs.verdictBefore⟩

/-- The steps before the error are those of the tokens before the level, of its opener, and of the
expression in it. -/
theorem OpenLevel.steps_parse (h : OpenLevel q es us) (o : Opener) :
    (parse (q ++ (o.tokens ++ es) ++ us)).steps =
      (parse q).steps.dropLast ++ o.enterStep :: (parse es).steps.dropLast ++
        [.failed o.unclosed] := by
  obtain ⟨steps, s, htakes, hs, hstops, hsteps⟩ := h.exists_takes o
  rw [htakes.parse_of_stops hstops, hs.verdictBefore, ← hsteps]
  rfl

/-- A parenthesis is missing exactly where a group leaves a level open, and the parenthesis of a
call exactly where a call does: an operand is missing before it, an expression is in it, what
follows neither continues the expression nor closes the level, and there is room for all
parentheses.  The steps are those of the tokens before it, of the opener and of the expression,
without the last ones of the two lists, and the error. -/
theorem unclosed_iff :
    (∀ ts : List Token, (parse ts).verdict = .invalid .unmatchedParenthesis ↔
      ∃ q es us, ts = q ++ .opening :: es ++ us ∧ OpenLevel q es us) ∧
    (∀ ts : List Token, (parse ts).verdict = .invalid .unmatchedCallParenthesis ↔
      ∃ (f : Func) (q es us : List Token), ts = q ++ .function f.name :: .opening :: es ++ us ∧
        OpenLevel q es us) ∧
    ∀ q es us : List Token, OpenLevel q es us →
      (parse (q ++ .opening :: es ++ us)).steps =
          (parse q).steps.dropLast ++ .opened :: (parse es).steps.dropLast ++
            [.failed .unmatchedParenthesis] ∧
        ∀ f : Func, (parse (q ++ .function f.name :: .opening :: es ++ us)).steps =
          (parse q).steps.dropLast ++ .entered f :: (parse es).steps.dropLast ++
            [.failed .unmatchedCallParenthesis] := by
  refine ⟨fun ts => ?_, fun ts => ?_, fun q es us hlevel => ?_⟩
  · refine (verdict_parse_eq_unclosed_iff (o := .group)).trans ?_
    constructor
    · rintro ⟨o, q, es, us, ho, hts, hlevel⟩
      cases o with
      | group => exact ⟨q, es, us, hts, hlevel⟩
      | call f => cases ho
    · rintro ⟨q, es, us, hts, hlevel⟩
      exact ⟨.group, q, es, us, rfl, hts, hlevel⟩
  · refine (verdict_parse_eq_unclosed_iff (o := .call .sin)).trans ?_
    constructor
    · rintro ⟨o, q, es, us, ho, hts, hlevel⟩
      cases o with
      | group => cases ho
      | call f => exact ⟨f, q, es, us, hts, hlevel⟩
    · rintro ⟨f, q, es, us, hts, hlevel⟩
      exact ⟨.call f, q, es, us, rfl, hts, hlevel⟩
  · exact ⟨hlevel.steps_parse .group, fun f => hlevel.steps_parse (.call f)⟩

/-- In `2*(1+5!^2` the sign after the factorial does not continue the expression, so its group stays
open, with the sum complete; in `2*cos(1+5!` nothing follows, and the call stays open. -/
theorem unclosed_factorial_power :
    OpenLevel [.number "2", .operator '*'] [.number "1", .operator '+', .number "5", .factorial]
        [.operator '^', .number "2"] ∧
      (parse [.number "2", .operator '*', .opening, .number "1", .operator '+', .number "5",
        .factorial, .operator '^', .number "2"]).verdict = .invalid .unmatchedParenthesis ∧
      (parse [.number "2", .operator '*', .opening, .number "1", .operator '+', .number "5",
        .factorial, .operator '^', .number "2"]).steps =
          [.literal "2", .opened, .literal "1", .literal "5", .factorial, .joined .add,
            .failed .unmatchedParenthesis] ∧
      OpenLevel [.number "2", .operator '*'] [.number "1", .operator '+', .number "5", .factorial]
        [] ∧
      (parse [.number "2", .operator '*', .function "cos", .opening, .number "1", .operator '+',
        .number "5", .factorial]).verdict = .invalid .unmatchedCallParenthesis := by
  have hgroup : OpenLevel [.number "2", .operator '*']
      [.number "1", .operator '+', .number "5", .factorial] [.operator '^', .number "2"] := by
    refine ⟨by rfl, by rfl, ?_, by decide⟩
    intro t ht
    obtain rfl : Token.operator '^' = t := Option.some.inj ht
    refine ⟨fun hcontinues => ?_, by decide⟩
    have hlast : Token.factorial.kind ≠ .factorial :=
      (continues_operator_iff .exponentiate).1 hcontinues rfl _ rfl
    exact hlast rfl
  have hcall : OpenLevel [.number "2", .operator '*']
      [.number "1", .operator '+', .number "5", .factorial] [] :=
    ⟨by rfl, by rfl, nofun, by decide⟩
  exact ⟨hgroup, (unclosed_iff.1 _).2 ⟨_, _, _, rfl, hgroup⟩, (unclosed_iff.2.2 _ _ _ hgroup).1,
    hcall, (unclosed_iff.2.1 _).2 ⟨.cos, _, _, _, rfl, hcall⟩⟩

end InfixArith
