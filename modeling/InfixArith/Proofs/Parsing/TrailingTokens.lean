import InfixArith.Proofs.Parsing.Stopping

/-!
# Tokens after a complete expression

The tokens of a valid list lead to a state that has no level open and stops with an expression
(`finish_eq_valid_iff`).  From there the next token is refused exactly when it does not continue the
list, and then it is left over with all that follows it.  So the lists with tokens left over are
those in which a valid list is followed by such a token, and this valid list is the longest one that
they begin with (`trailingTokens_iff`).
-/

namespace InfixArith

variable {s : State} {ts p q us : List Token} {t : Token} {steps : List Step} {e : Expr}

/-! ### The state after a valid list -/

/-- A reading may end with an expression where no level is open and an operand has been read. -/
theorem finish_eq_valid_iff :
    s.finish.2 = .valid e ↔
      ∃ (sum : Pending .expression) (product : Pending .term) (e' : Expr) (powers : Bool),
        s = ⟨[], sum, product, .operator e' powers⟩ ∧ sum.join (product.join e') = e := by
  constructor
  · intro h
    obtain ⟨fs, sum, product, position⟩ := s
    cases position with
    | operand power => cases h
    | callee f power => cases h
    | operator e' powers =>
      cases fs with
      | cons fr fs => cases h
      | nil => exact ⟨sum, product, e', powers, rfl, Verdict.valid.inj h⟩
  · rintro ⟨sum, product, e', powers, rfl, rfl⟩
    rfl

/-- Tokens are left over where the reading might have ended with an expression. -/
theorem verdictBefore_eq_trailingTokens_iff :
    s.verdictBefore us = .invalid .trailingTokens ↔ us ≠ [] ∧ ∃ e, s.finish.2 = .valid e := by
  obtain ⟨fs, sum, product, position⟩ := s
  cases position with
  | operand power => cases us <;> exact iff_of_false nofun nofun
  | callee f power => cases us <;> exact iff_of_false nofun nofun
  | operator e powers =>
    cases fs with
    | nil =>
      cases us with
      | nil => exact iff_of_false nofun fun h => h.1 rfl
      | cons t us => exact iff_of_true rfl ⟨List.cons_ne_nil t us, _, rfl⟩
    | cons fr fs =>
      rw [verdictBefore_operator]
      refine iff_of_false (fun h => ?_) nofun
      cases fr with
      | mk o sum product power => cases o <;> cases h

/-- Without tokens there is no expression. -/
theorem Takes.ne_nil_of_valid (h : Takes .expression 0 .start p steps s)
    (hs : s.finish.2 = .valid e) : p ≠ [] := by
  rintro rfl
  cases h.shifts
  cases hs

/-- After a valid list a token is refused when it does not continue the list. -/
theorem Takes.stuck_iff_of_valid (h : Takes .expression 0 .start p steps s)
    (hs : s.finish.2 = .valid e) : Stuck .expression s t ↔ ¬ Continues p t := by
  have hp : p ≠ [] := h.ne_nil_of_valid hs
  obtain ⟨sum, product, e', powers, rfl, -⟩ := finish_eq_valid_iff.1 hs
  rw [h.shifts.stuck_iff hp rfl]
  exact and_iff_left fun _ => rfl

/-! ### Tokens that are left over -/

/-- A token that does not continue a valid list ends the reading after this list. -/
theorem parse_append_of_not_continues (hp : (parse p).isValid = true) (ht : ¬ Continues p t)
    (us : List Token) :
    parse (p ++ t :: us) = ⟨(parse p).taken, .invalid .trailingTokens⟩ := by
  obtain ⟨e, he⟩ := Verdict.isValid_iff.1 hp
  obtain ⟨steps, s, htakes, hs⟩ := verdict_parse_eq_valid_iff_takes.1 he
  have hstops : Stops s (t :: us) := stops_cons_iff.2 ((htakes.stuck_iff_of_valid hs).2 ht)
  have hverdict : s.verdictBefore (t :: us) = .invalid .trailingTokens :=
    verdictBefore_eq_trailingTokens_iff.2 ⟨List.cons_ne_nil t us, e, hs⟩
  rw [htakes.parse_of_stops hstops, hverdict, htakes.parse_eq]

/-- Tokens are left over when a token that does not continue a valid list follows it. -/
theorem verdict_parse_eq_trailingTokens_iff :
    (parse ts).verdict = .invalid .trailingTokens ↔
      ∃ p t us, ts = p ++ t :: us ∧ (parse p).isValid = true ∧ ¬ Continues p t := by
  constructor
  · intro h
    obtain ⟨p, us, steps, s, rfl, htakes, hstops, hverdict⟩ :=
      (verdict_parse_eq_iff_stops (by simp)).1 h
    obtain ⟨hus, e, hs⟩ := verdictBefore_eq_trailingTokens_iff.1 hverdict
    obtain ⟨t, us, rfl⟩ := List.exists_cons_of_ne_nil hus
    have hp : (parse p).isValid = true :=
      Verdict.isValid_iff.2 ⟨e, verdict_parse_eq_valid_iff_takes.2 ⟨steps, s, htakes, hs⟩⟩
    exact ⟨p, t, us, rfl, hp, (htakes.stuck_iff_of_valid hs).1 (stops_cons_iff.1 hstops)⟩
  · rintro ⟨p, t, us, rfl, hp, ht⟩
    rw [parse_append_of_not_continues hp ht]

/-- A valid beginning does not go past a token that does not continue a valid list. -/
theorem prefix_of_not_continues (hp : (parse p).isValid = true) (ht : ¬ Continues p t)
    (hq : q <+: p ++ t :: us) (hvalid : (parse q).isValid = true) : q <+: p := by
  obtain ⟨w, hw⟩ := hq
  rcases List.append_eq_append_iff.1 hw with ⟨v, rfl, -⟩ | ⟨v, rfl, hv⟩
  · exact List.prefix_append q v
  · rcases List.cons_eq_append_iff.1 hv with ⟨rfl, -⟩ | ⟨v', rfl, -⟩
    · simp
    · -- A longer beginning has the token after the valid list, so it has tokens left over too.
      rw [parse_append_of_not_continues hp ht] at hvalid
      cases hvalid

/-- Tokens are left over exactly when a valid list is followed by a token that does not continue it.
The valid list is then the longest one that the tokens begin with, and the steps are those of this
list, with the error in the place of the step that completes it. -/
theorem trailingTokens_iff :
    (∀ ts : List Token, (parse ts).verdict = .invalid .trailingTokens ↔
      ∃ p t us, ts = p ++ t :: us ∧ (parse p).isValid = true ∧ ¬ Continues p t) ∧
    ∀ (p us : List Token) (t : Token), (parse p).isValid = true → ¬ Continues p t →
      (∀ q, q <+: p ++ t :: us → (parse q).isValid = true → q <+: p) ∧
        ∃ steps, (parse p).steps = steps ++ [.complete] ∧
          (parse (p ++ t :: us)).steps = steps ++ [.failed .trailingTokens] := by
  refine ⟨fun ts => verdict_parse_eq_trailingTokens_iff, fun p us t hp ht => ⟨?_, ?_⟩⟩
  · intro q hq hvalid
    exact prefix_of_not_continues hp ht hq hvalid
  · obtain ⟨e, he⟩ := Verdict.isValid_iff.1 hp
    refine ⟨(parse p).taken, ?_, ?_⟩
    · rw [Derivation.steps, he]
      rfl
    · rw [parse_append_of_not_continues hp ht]
      rfl

/-- In `5!^2+1` the sign after the factorial is left over with all that follows it, and `5!` is the
longest valid beginning; the shorter one `5` is a beginning of it. -/
theorem trailingTokens_factorial_power :
    ((parse [.number "5", .factorial]).isValid = true ∧
      ¬ Continues [.number "5", .factorial] (.operator '^') ∧
      (parse [.number "5", .factorial, .operator '^', .number "2", .operator '+',
        .number "1"]).verdict = .invalid .trailingTokens) ∧
    ([Token.number "5"] <+: [.number "5", .factorial, .operator '^', .number "2", .operator '+',
        .number "1"] ∧
      (parse [.number "5"]).isValid = true ∧
      [Token.number "5"] <+: [.number "5", .factorial]) ∧
    ∃ steps, (parse [.number "5", .factorial]).steps = steps ++ [.complete] ∧
      (parse [.number "5", .factorial, .operator '^', .number "2", .operator '+',
        .number "1"]).steps = steps ++ [.failed .trailingTokens] := by
  have hvalid : (parse [.number "5", .factorial]).isValid = true := by rfl
  have hsign : ¬ Continues [.number "5", .factorial] (.operator '^') := by
    intro h
    have hkind : Token.factorial.kind ≠ .factorial :=
      (continues_operator_iff .exponentiate).1 h rfl _ rfl
    exact hkind rfl
  have hshorter : [Token.number "5"] <+: [.number "5", .factorial, .operator '^', .number "2",
      .operator '+', .number "1"] := List.prefix_append [Token.number "5"] _
  have hshorter' : (parse [.number "5"]).isValid = true := by rfl
  obtain ⟨hlongest, hsteps⟩ :=
    trailingTokens_iff.2 _ [.number "2", .operator '+', .number "1"] _ hvalid hsign
  exact ⟨⟨hvalid, hsign, (trailingTokens_iff.1 _).2 ⟨_, _, _, rfl, hvalid, hsign⟩⟩,
    ⟨hshorter, hshorter', hlongest _ hshorter hshorter'⟩, hsteps⟩

/-- An operator that no rule has is left over, and so is a closing parenthesis that none opens. -/
example :
    (parse [.number "2", ⟨.operator, "**"⟩, .number "3"]).verdict = .invalid .trailingTokens ∧
      (parse [.number "2", .closing]).verdict = .invalid .trailingTokens := by
  constructor <;> rfl

end InfixArith
