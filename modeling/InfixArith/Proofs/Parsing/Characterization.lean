import InfixArith.Proofs.Parsing.Completeness
import InfixArith.Proofs.Parsing.Soundness

/-!
# The tokens that are valid

`parse` finds exactly the expressions that the grammar derives, as long as the parentheses nest
within the limit (`verdict_parse_eq_valid_iff`), and where they do not, it says so
(`Derives.verdict_parse_of_not_nestsWithin`).  As the reading of a list of tokens is unique, no list
derives two expressions (`Derives.unique`), whether it nests within the limit or not.  The steps of
valid tokens are those of a phrase (`Phrase.parse_tokens`).
-/

namespace InfixArith

variable {ts us : List Token} {t : Token} {e e' : Expr} {v : Verdict} {steps : List Step}
  {s : State}

/-! ### The verdict of a reading -/

/-- When no tokens are left over, the verdict stands for the whole list. -/
theorem whole_of_rest_nil : Outcome.whole ⟨v, [], steps⟩ = v := by
  cases v <;> rfl

/-- Tokens that are left over make no expression. -/
theorem whole_of_rest_cons : Outcome.whole ⟨v, t :: us, steps⟩ ≠ .valid e := by
  cases v <;> simp [Outcome.whole]

/-- Tokens that are all taken are derived as the state after them says. -/
theorem Takes.parse_eq (h : Takes .expression 0 .start ts steps s) :
    parse ts = ⟨steps ++ s.finish.1, s.finish.2⟩ := by
  have hending : Ending .expression 0 .start ts ⟨s.finish.2, [], steps ++ s.finish.1⟩ :=
    .finished h
  rw [hending.parse_eq, whole_of_rest_nil]

/-- Tokens are valid when all of them are taken and lead to a state that stops with an
expression. -/
theorem verdict_parse_eq_valid_iff_takes :
    (parse ts).verdict = .valid e ↔
      ∃ steps s, Takes .expression 0 .start ts steps s ∧ s.finish.2 = .valid e := by
  constructor
  · intro h
    obtain ⟨o, ho⟩ := exists_ending_start ts
    rw [ho.parse_eq] at h
    cases ho with
    | finished htakes => exact ⟨_, _, htakes, whole_of_rest_nil.symm.trans h⟩
    | stuck _ _ => exact absurd h whole_of_rest_cons
    | tooDeep _ _ _ => cases h
  · rintro ⟨steps, s, htakes, hs⟩
    rw [htakes.parse_eq, hs]

/-- Tokens that would all continue the start but nest past the limit fail for this reason. -/
theorem Shifts.verdict_parse_of_not_nestsWithin (h : Shifts .expression .start ts steps s)
    (hts : ¬ Token.NestsWithin nestingLimit ts) :
    (parse ts).verdict = .invalid (.nestingTooDeep nestingLimit) := by
  obtain ⟨o, ho⟩ := exists_ending_start ts
  rw [ho.parse_eq]
  cases ho with
  | finished htakes => exact absurd htakes.within hts
  | stuck htakes hstuck =>
    -- The tokens before this one lead to one state only, and `h` goes on from there.
    obtain ⟨_, _, _, h₁, h₂, -⟩ := h.exists_of_append
    obtain ⟨-, rfl⟩ := h₁.unique htakes.shifts
    cases h₂ with
    | cons hshift _ => exact absurd hshift (hstuck _ _)
  | tooDeep _ _ _ => rfl

/-- The steps before the last one are those of some first tokens, either with what their end would
leave or without it. -/
theorem exists_shifts_parse (ts : List Token) :
    ∃ q steps s, q <+: ts ∧ Shifts .expression .start q steps s ∧
      ((parse ts).taken = steps ++ s.finish.1 ∨ (parse ts).taken = steps) := by
  obtain ⟨o, ho⟩ := exists_ending_start ts
  rw [ho.parse_eq]
  cases ho with
  | finished htakes => exact ⟨ts, _, _, List.prefix_rfl, htakes.shifts, .inl rfl⟩
  | @stuck q us t steps s htakes hstuck =>
    exact ⟨q, _, _, List.prefix_append q _, htakes.shifts, .inl (by rw [refuse_fst])⟩
  | @tooDeep q us steps steps' s s' htakes hopen hfull =>
    -- The parenthesis past the limit still writes down its step, and nothing comes after it.
    have hprefix : q ++ [.opening] <+: q ++ .opening :: us := by
      rw [List.append_cons q _ us]
      exact List.prefix_append _ us
    exact ⟨_, _, s', hprefix, htakes.shifts.append (.single hopen), .inr rfl⟩

/-! ### Derived expressions -/

/-- The valid lists of tokens are those that derive an expression and nest within the limit. -/
theorem verdict_parse_eq_valid_iff :
    (parse ts).verdict = .valid e ↔
      Derives .expression ts e ∧ Token.NestsWithin nestingLimit ts := by
  rw [verdict_parse_eq_valid_iff_takes]
  constructor
  · rintro ⟨steps, s, htakes, hs⟩
    exact ⟨htakes.shifts.derives hs, htakes.within⟩
  · rintro ⟨hderives, hwithin⟩
    obtain ⟨steps, s, hshifts, hs⟩ := hderives.exists_shifts_start
    exact ⟨steps, s, ⟨hshifts, hwithin⟩, hs⟩

/-- An expression that nests past the limit fails for this reason. -/
theorem Derives.verdict_parse_of_not_nestsWithin (h : Derives .expression ts e)
    (hts : ¬ Token.NestsWithin nestingLimit ts) :
    (parse ts).verdict = .invalid (.nestingTooDeep nestingLimit) := by
  obtain ⟨steps, s, hshifts, -⟩ := h.exists_shifts_start
  exact hshifts.verdict_parse_of_not_nestsWithin hts

/-- A list of tokens derives one expression at most. -/
theorem Derives.unique (h : Derives .expression ts e) (h' : Derives .expression ts e') :
    e = e' := by
  obtain ⟨steps, s, hshifts, hs⟩ := h.exists_shifts_start
  obtain ⟨steps', s', hshifts', hs'⟩ := h'.exists_shifts_start
  obtain ⟨-, rfl⟩ := hshifts.unique hshifts'
  exact Verdict.valid.inj (hs.symm.trans hs')

/-! ### The steps of a phrase -/

/-- The tokens of a phrase that nests within the limit are derived with its steps and its
expression. -/
theorem Phrase.parse_tokens (p : Phrase .expression)
    (h : Token.NestsWithin nestingLimit p.tokens) : parse p.tokens = ⟨p.steps, .valid p.expr⟩ := by
  obtain ⟨taken, s', hshifts, hvalid, hsteps⟩ := p.exists_shifts_start
  have htakes : Takes .expression 0 .start p.tokens taken s' := ⟨hshifts, h⟩
  rw [htakes.parse_eq, hvalid, hsteps]

/-- Valid tokens are those of a phrase, and this phrase has the steps by which they are derived. -/
theorem exists_phrase_of_valid (h : (parse ts).verdict = .valid e) :
    ∃ p : Phrase .expression, p.tokens = ts ∧ Token.NestsWithin nestingLimit p.tokens ∧
      parse ts = ⟨p.steps, .valid e⟩ ∧ p.expr = e := by
  obtain ⟨hderives, hwithin⟩ := verdict_parse_eq_valid_iff.1 h
  obtain ⟨p, rfl, rfl⟩ := hderives.exists_phrase
  exact ⟨p, rfl, hwithin, p.parse_tokens hwithin, rfl⟩

/-- The parser and the grammar agree: on lists that nest within the limit they give the same
expression, beyond the limit the parser names the limit, and the grammar is unambiguous. -/
theorem parse_iff_derives :
    (∀ ts e, (parse ts).verdict = .valid e ↔
      Derives .expression ts e ∧ Token.NestsWithin nestingLimit ts) ∧
    (∀ ts e, Derives .expression ts e → ¬ Token.NestsWithin nestingLimit ts →
      (parse ts).verdict = .invalid (.nestingTooDeep nestingLimit)) ∧
    ∀ ts e e', Derives .expression ts e → Derives .expression ts e' → e = e' := by
  refine ⟨?_, ?_, ?_⟩
  · intro ts e
    exact verdict_parse_eq_valid_iff
  · intro ts e h hts
    exact h.verdict_parse_of_not_nestsWithin hts
  · intro ts e e' h h'
    exact h.unique h'

/-- The tokens of `1` inside `n` pairs of parentheses. -/
def nestedOne (n : Nat) : List Token :=
  .replicate n .opening ++ .number "1" :: .replicate n .closing

/-- One more pair of parentheses goes around the tokens with one pair less. -/
theorem nestedOne_succ (n : Nat) :
    nestedOne (n + 1) = .opening :: (nestedOne n ++ [.closing]) := by
  simp [nestedOne, List.replicate_succ, ← List.replicate_succ']

/-- Parentheses around a number leave the number. -/
theorem derives_nestedOne (n : Nat) : Derives .expression (nestedOne n) (.literal "1") := by
  induction n with
  | zero => exact (Derives.number "1").of_rank_le (by decide)
  | succ n ih =>
    rw [nestedOne_succ]
    exact ih.group.of_rank_le (by decide)

/-- A number in `n` pairs of parentheses nests within `n` levels. -/
theorem nestsWithin_nestedOne (n : Nat) : Token.NestsWithin n (nestedOne n) := by
  induction n with
  | zero => exact Token.nestsWithin_singleton.2 ⟨Int.le_refl 0, by decide⟩
  | succ n ih =>
    rw [nestedOne_succ, Token.nestsWithin_parentheses]
    exact ih.mono (by omega)

/-- A number in `n` pairs of parentheses does not nest within fewer levels. -/
theorem not_nestsWithin_nestedOne {n : Nat} {k : Int} (hk : k < n) :
    ¬ Token.NestsWithin k (nestedOne n) := by
  intro h
  have hdepth : Token.depth (.replicate n .opening) ≤ k := h _ (List.prefix_append _ _)
  rw [Token.depth_replicate_opening] at hdepth
  omega

/-- `2^3!` is `(2^3)!` and nothing else, and 129 parentheses around `1` are one too many. -/
theorem parse_iff_derives_power_factorial :
    (parse [.number "2", .operator '^', .number "3", .factorial]).verdict =
        .valid (.factorial (.binary .exponentiate (.literal "2") (.literal "3"))) ∧
      (Derives .expression (nestedOne 129) (.literal "1") ∧
        ¬ Token.NestsWithin nestingLimit (nestedOne 129) ∧
        (parse (nestedOne 129)).verdict = .invalid (.nestingTooDeep 128)) ∧
      ∀ e, Derives .expression (nestedOne 129) e → e = .literal "1" := by
  refine ⟨(parse_iff_derives.1 _ _).2 ⟨?_, ?_⟩, ?_, ?_⟩
  · have hpower : Derives .power [.number "2", .operator '^', .number "3"]
        (.binary .exponentiate (.literal "2") (.literal "3")) :=
      .binary .exponentiate rfl ((Derives.number "2").of_rank_le (by decide)) (.number "3")
    exact (hpower.of_rank_le (r := .factor) (by decide)).factorial "!" |>.of_rank_le (by decide)
  · exact (Token.nestsWithin_length _).mono (by decide)
  · have hnests : ¬ Token.NestsWithin nestingLimit (nestedOne 129) :=
      not_nestsWithin_nestedOne (by decide)
    exact ⟨derives_nestedOne 129, hnests,
      parse_iff_derives.2.1 _ _ (derives_nestedOne 129) hnests⟩
  · exact fun e h => parse_iff_derives.2.2 _ _ _ h (derives_nestedOne 129)

end InfixArith
