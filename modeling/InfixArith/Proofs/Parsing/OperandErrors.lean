import InfixArith.Proofs.Parsing.Stopping
import InfixArith.Proofs.Scanning.Pieces

/-!
# Errors where an operand is missing

Two errors are found where an operand is awaited: a token with which no operand begins, and the name
of a function without a parenthesis after it.  They are the errors of exactly the lists that begin
with tokens after which an operand is missing and go on in this way, and the steps are those of
these first tokens (`operandErrors_iff`).  Of the tokens of a text, only the factorial sign, the
binary operators and the closing parenthesis can be unexpected.
-/

namespace InfixArith

variable {s : State} {ts q us : List Token} {t : Token} {steps : List Step}

/-! ### The state at an operand -/

/-- After an operand the error is not that of an operand. -/
theorem verdictBefore_operator_ne {e : Expr} {powers : Bool}
    (hs : s.position = .operator e powers) :
    (∀ t, s.verdictBefore us ≠ .invalid (.unexpectedToken t)) ∧
      s.verdictBefore us ≠ .invalid .functionWithoutParenthesis := by
  obtain ⟨fs, sum, product, position⟩ := s
  obtain rfl : position = .operator e powers := hs
  cases fs with
  | nil =>
    cases us with
    | nil => exact ⟨nofun, nofun⟩
    | cons t us => exact ⟨nofun, nofun⟩
  | cons fr fs =>
    rw [verdictBefore_operator]
    cases fr.opener with
    | group => exact ⟨nofun, nofun⟩
    | call f => exact ⟨nofun, nofun⟩

/-- A token is unexpected when it is the next one where an operand is awaited. -/
theorem verdictBefore_eq_unexpectedToken_iff :
    s.verdictBefore us = .invalid (.unexpectedToken t) ↔ s.Awaits .primary ∧ us.head? = some t := by
  cases hposition : s.position with
  | operand power =>
    have hawaits : s.Awaits .primary := ⟨power, hposition⟩
    cases us with
    | nil =>
      rw [State.verdictBefore, State.finish, hposition]
      constructor
      · intro hend
        cases hend
      · rintro ⟨-, hhead⟩
        cases hhead
    | cons u us =>
      rw [State.verdictBefore, State.refusal, hposition]
      simp [hawaits]
  | callee f power =>
    rw [verdictBefore_callee hposition]
    constructor
    · intro hname
      cases hname
    · rintro ⟨⟨power', hpower⟩, -⟩
      cases hposition.symm.trans hpower
  | operator e powers =>
    refine iff_of_false ((verdictBefore_operator_ne hposition).1 t) ?_
    rintro ⟨⟨power', hpower⟩, -⟩
    cases hposition.symm.trans hpower

/-- A parenthesis is missing after the name of a function when the state waits for it. -/
theorem verdictBefore_eq_functionWithoutParenthesis_iff :
    s.verdictBefore us = .invalid .functionWithoutParenthesis ↔
      ∃ f power, s.position = .callee f power := by
  constructor
  · intro h
    cases hposition : s.position with
    | operand power =>
      cases us with
      | nil =>
        rw [State.verdictBefore, State.finish, hposition] at h
        cases h
      | cons t us =>
        rw [State.verdictBefore, State.refusal, hposition] at h
        cases h
    | callee f power => exact ⟨f, power, rfl⟩
    | operator e powers => exact absurd h (verdictBefore_operator_ne hposition).2
  · rintro ⟨f, power, hs⟩
    exact verdictBefore_callee hs

/-! ### Tokens that begin no operand -/

/-- A token that begins no operand ends the reading where an operand is awaited. -/
theorem Takes.parse_of_not_beginsOperand (h : Takes .expression 0 .start q steps s)
    (hs : s.Awaits .primary) (ht : ¬ t.BeginsOperand) (us : List Token) :
    parse (q ++ t :: us) = ⟨steps, .invalid (.unexpectedToken t)⟩ := by
  obtain ⟨power, hposition⟩ := hs
  have hstops : Stops s (t :: us) := stops_cons_iff.2 ((stuck_operand_iff hposition).2 ht)
  have hverdict : s.verdictBefore (t :: us) = .invalid (.unexpectedToken t) :=
    verdictBefore_eq_unexpectedToken_iff.2 ⟨⟨power, hposition⟩, rfl⟩
  rw [h.parse_of_stops hstops, hverdict, State.finish, hposition, List.append_nil]

/-- A token is unexpected when no operand begins with it and the tokens before it lack one. -/
theorem verdict_parse_eq_unexpectedToken_iff :
    (parse ts).verdict = .invalid (.unexpectedToken t) ↔
      ∃ q us, ts = q ++ t :: us ∧ (parse q).verdict = .invalid .unexpectedEnd ∧
        ¬ t.BeginsOperand := by
  constructor
  · intro h
    obtain ⟨q, us, steps, s, rfl, htakes, hstops, hverdict⟩ :=
      (verdict_parse_eq_iff_stops (by simp)).1 h
    obtain ⟨hs, hhead⟩ := verdictBefore_eq_unexpectedToken_iff.1 hverdict
    obtain ⟨us, rfl⟩ : ∃ us', us = t :: us' := List.head?_eq_some_iff.1 hhead
    obtain ⟨power, hposition⟩ := hs
    have ht : ¬ t.BeginsOperand := (stuck_operand_iff hposition).1 (hstops t rfl)
    have hend : (parse q).verdict = .invalid .unexpectedEnd :=
      verdict_parse_eq_unexpectedEnd_iff.2 ⟨steps, s, htakes, power, hposition⟩
    exact ⟨q, us, rfl, hend, ht⟩
  · rintro ⟨q, us, rfl, hend, ht⟩
    obtain ⟨steps, s, htakes, hs⟩ := verdict_parse_eq_unexpectedEnd_iff.1 hend
    rw [htakes.parse_of_not_beginsOperand hs ht]

/-! ### Names without a parenthesis -/

/-- The name of a function ends the reading when no parenthesis follows it. -/
theorem Takes.parse_of_function (h : Takes .expression 0 .start q steps s) (hs : s.Awaits .primary)
    (f : Func) (hus : .opening ∉ us.head?) :
    parse (q ++ .function f.name :: us) = ⟨steps, .invalid .functionWithoutParenthesis⟩ := by
  obtain ⟨fs, sum, product, position⟩ := s
  obtain ⟨power, rfl⟩ := hs
  have hname : Takes .expression 0 ⟨fs, sum, product, .operand power⟩ [.function f.name] []
      ⟨fs, sum, product, .callee f power⟩ := .of_shift (.name f) h.room_nonneg nofun
  have hstops : Stops ⟨fs, sum, product, .callee f power⟩ us := by
    intro t ht
    refine (stuck_callee_iff rfl).2 ?_
    rintro rfl
    exact hus ht
  have hlist : q ++ .function f.name :: us = q ++ [.function f.name] ++ us :=
    List.append_cons q _ us
  rw [hlist, (h.append hname).parse_of_stops hstops, verdictBefore_callee rfl, List.append_nil]
  exact congrArg (Derivation.mk · _) (List.append_nil steps)

/-- A function has no parenthesis when its name stands where an operand is missing and no opening
parenthesis follows. -/
theorem verdict_parse_eq_functionWithoutParenthesis_iff :
    (parse ts).verdict = .invalid .functionWithoutParenthesis ↔
      ∃ (q : List Token) (f : Func) (us : List Token), ts = q ++ .function f.name :: us ∧
        (parse q).verdict = .invalid .unexpectedEnd ∧ .opening ∉ us.head? := by
  constructor
  · intro h
    obtain ⟨q', us, steps, s, rfl, htakes, hstops, hverdict⟩ :=
      (verdict_parse_eq_iff_stops (by simp)).1 h
    obtain ⟨f, power, hposition⟩ := verdictBefore_eq_functionWithoutParenthesis_iff.1 hverdict
    obtain ⟨q, s₀, rfl, hq, hs₀⟩ := htakes.exists_of_callee hposition
    refine ⟨q, f, us, (List.append_cons q _ us).symm,
      verdict_parse_eq_unexpectedEnd_iff.2 ⟨steps, s₀, hq, hs₀⟩, fun hhead => ?_⟩
    exact (stuck_callee_iff hposition).1 (hstops .opening hhead) rfl
  · rintro ⟨q, f, us, rfl, hend, hus⟩
    obtain ⟨steps, s, htakes, hs⟩ := verdict_parse_eq_unexpectedEnd_iff.1 hend
    rw [htakes.parse_of_function hs f hus]

/-! ### Both errors -/

/-- Of the tokens of a text, an operand may begin with all but the signs that stand after one. -/
theorem Token.WellFormed.eq_of_not_beginsOperand (h : t.WellFormed) (ht : ¬ t.BeginsOperand) :
    t = .factorial ∨ t = .closing ∨ ∃ op : BinaryOp, t = .operator op.symbol := by
  cases h with
  | @number digits hne hdigits => exact absurd (.number digits) ht
  | function f => exact absurd (.function f) ht
  | opening => exact absurd .opening ht
  | closing => exact .inr (.inl rfl)
  | binary op => exact .inr (.inr ⟨op, rfl⟩)
  | factorial => exact .inl rfl

/-- A token is unexpected exactly where an operand is missing after the tokens before it and none
begins with it, and a function is without its parenthesis exactly where an operand is missing before
it and something else follows it, or nothing.  The steps before either error are those of the tokens
before it.  In a text the unexpected token is a factorial sign, a closing parenthesis or a binary
operator. -/
theorem operandErrors_iff :
    (∀ (ts : List Token) (t : Token), (parse ts).verdict = .invalid (.unexpectedToken t) ↔
      ∃ q us, ts = q ++ t :: us ∧ (parse q).verdict = .invalid .unexpectedEnd ∧
        ¬ t.BeginsOperand) ∧
    (∀ ts : List Token, (parse ts).verdict = .invalid .functionWithoutParenthesis ↔
      ∃ (q : List Token) (f : Func) (us : List Token), ts = q ++ .function f.name :: us ∧
        (parse q).verdict = .invalid .unexpectedEnd ∧ .opening ∉ us.head?) ∧
    (∀ (q us : List Token) (t : Token), (parse q).verdict = .invalid .unexpectedEnd →
      ¬ t.BeginsOperand → (parse (q ++ t :: us)).steps =
        (parse q).steps.dropLast ++ [.failed (.unexpectedToken t)]) ∧
    (∀ (q us : List Token) (f : Func), (parse q).verdict = .invalid .unexpectedEnd →
      .opening ∉ us.head? → (parse (q ++ .function f.name :: us)).steps =
        (parse q).steps.dropLast ++ [.failed .functionWithoutParenthesis]) ∧
    ∀ (text : String) (ts : List Token) (t : Token), tokenize text = .ok ts →
      (parse ts).verdict = .invalid (.unexpectedToken t) →
        t.kind ≠ .number ∧ t.kind ≠ .function ∧ t ≠ .opening ∧
          (t = .factorial ∨ t = .closing ∨ ∃ op : BinaryOp, t = .operator op.symbol) := by
  refine ⟨?_, ?_, ?_, ?_, ?_⟩
  · intro ts t
    exact verdict_parse_eq_unexpectedToken_iff
  · intro ts
    exact verdict_parse_eq_functionWithoutParenthesis_iff
  · intro q us t hend ht
    obtain ⟨steps, s, htakes, hs⟩ := verdict_parse_eq_unexpectedEnd_iff.1 hend
    rw [htakes.dropLast_steps_parse hs, htakes.parse_of_not_beginsOperand hs ht]
    rfl
  · intro q us f hend hus
    obtain ⟨steps, s, htakes, hs⟩ := verdict_parse_eq_unexpectedEnd_iff.1 hend
    rw [htakes.dropLast_steps_parse hs, htakes.parse_of_function hs f hus]
    rfl
  · intro text ts t htext h
    obtain ⟨q, us, rfl, -, ht⟩ := verdict_parse_eq_unexpectedToken_iff.1 h
    have hmem : t ∈ (scan text).tokens := by
      rw [tokenize_eq_ok_iff.1 htext]
      exact List.mem_append_right q List.mem_cons_self
    have hwell : t.WellFormed := wellFormed_of_mem_scan hmem
    rcases hwell.eq_of_not_beginsOperand ht with rfl | rfl | ⟨op, rfl⟩
    · exact ⟨nofun, nofun, by decide, .inl rfl⟩
    · exact ⟨nofun, nofun, by decide, .inr (.inl rfl)⟩
    · exact ⟨nofun, nofun, fun h => ht (h ▸ .opening), .inr (.inr ⟨op, rfl⟩)⟩

/-- After `1+`, where an operand is missing, `tan` is unexpected because no function is called so,
`sin` is without its parenthesis before a number, and so is the `*` of a text unexpected. -/
theorem operandErrors_after_sign :
    (parse [.number "1", .operator '+']).verdict = .invalid .unexpectedEnd ∧
      (¬ (Token.function "tan").BeginsOperand ∧
        (parse [.number "1", .operator '+', .function "tan", .opening]).verdict =
          .invalid (.unexpectedToken (.function "tan")) ∧
        (parse [.number "1", .operator '+', .function "tan", .opening]).steps =
          [.literal "1", .failed (.unexpectedToken (.function "tan"))]) ∧
      (Token.opening ∉ [Token.number "2"].head? ∧
        (parse [.number "1", .operator '+', .function "sin", .number "2"]).verdict =
          .invalid .functionWithoutParenthesis ∧
        (parse [.number "1", .operator '+', .function "sin", .number "2"]).steps =
          [.literal "1", .failed .functionWithoutParenthesis]) ∧
      tokenize "1+*" = .ok [.number "1", .operator '+', .operator '*'] ∧
      (parse [.number "1", .operator '+', .operator '*']).verdict =
        .invalid (.unexpectedToken (.operator '*')) ∧
      ∃ op : BinaryOp, Token.operator '*' = .operator op.symbol := by
  have hend : (parse [.number "1", .operator '+']).verdict = .invalid .unexpectedEnd := by rfl
  have hname : ¬ (Token.function "tan").BeginsOperand := by
    generalize ht : Token.function "tan" = t
    rintro (text | _ | f)
    · cases ht
    · cases ht
    · revert ht
      cases f <;> decide
  have hhead : Token.opening ∉ [Token.number "2"].head? := by decide
  have htext : tokenize "1+*" = .ok [.number "1", .operator '+', .operator '*'] := by rfl
  have hsign : (parse [.number "1", .operator '+', .operator '*']).verdict =
      .invalid (.unexpectedToken (.operator '*')) := by rfl
  obtain ⟨-, -, -, hkinds⟩ := operandErrors_iff.2.2.2.2 _ _ _ htext hsign
  have hop : ∃ op : BinaryOp, Token.operator '*' = .operator op.symbol := by
    rcases hkinds with h | h | h
    · cases h
    · exact absurd h (by decide)
    · exact h
  exact ⟨hend,
    ⟨hname, (operandErrors_iff.1 _ _).2 ⟨_, [.opening], rfl, hend, hname⟩,
      operandErrors_iff.2.2.1 _ [.opening] _ hend hname⟩,
    ⟨hhead, (operandErrors_iff.2.1 _).2 ⟨_, .sin, _, rfl, hend, hhead⟩,
      operandErrors_iff.2.2.2.1 _ _ .sin hend hhead⟩, htext, hsign, hop⟩

end InfixArith
