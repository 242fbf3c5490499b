import InfixArith.Proofs.Parsing.Completion

/-!
# More tokens after a list

A reading that leaves tokens over has ended at the first of them, and more tokens at the end of the
list change nothing but what is left over (`Ending.append_rest`).  So an error that is found at a
token lasts (`ParseError.Lasting`), with all steps before it, and where the tokens end before an
operand, more of them only add steps (`parse_append`).
-/

namespace InfixArith

/-- The error is found at a token that cannot be taken, whatever stands after it. -/
inductive ParseError.Lasting : ParseError → Prop
  /-- The token stands where an operand is needed. -/
  | unexpectedToken (t : Token) : Lasting (.unexpectedToken t)
  /-- The token stands after a complete expression. -/
  | trailingTokens : Lasting .trailingTokens
  /-- The token is one opening parenthesis too many. -/
  | nestingTooDeep (limit : Nat) : Lasting (.nestingTooDeep limit)

variable {asked : Rule} {outer : Nat} {s : State} {ts us : List Token} {steps : List Step}
  {o : Outcome} {error : ParseError}

/-! ### Readings that leave tokens over -/

/-- More tokens after those that are left over are left over too. -/
theorem Ending.append_rest (h : Ending asked outer s ts o) (ho : o.rest ≠ []) (us : List Token) :
    Ending asked outer s (ts ++ us) { o with rest := o.rest ++ us } := by
  cases h with
  | finished htakes => exact absurd rfl ho
  | stuck htakes hstuck =>
    rw [List.append_assoc, List.cons_append]
    exact .stuck htakes hstuck
  | tooDeep htakes hopen hfull =>
    rw [List.append_assoc, List.cons_append]
    exact .tooDeep htakes hopen hfull

/-- What is left over counts only in that it is not empty. -/
theorem whole_append_rest (ho : o.rest ≠ []) (us : List Token) :
    Outcome.whole { o with rest := o.rest ++ us } = o.whole := by
  obtain ⟨verdict, rest, steps⟩ := o
  obtain ⟨t, rest, rfl⟩ := List.exists_cons_of_ne_nil ho
  cases verdict <;> rfl

/-- A missing parenthesis may still follow. -/
theorem not_lasting_unclosed (o : Opener) : ¬ o.unclosed.Lasting := by
  cases o <;> exact nofun

/-- Where the tokens end, no lasting error is found. -/
theorem not_lasting_of_finish (h : s.finish.2 = .invalid error) : ¬ error.Lasting := by
  obtain ⟨fs, sum, product, position⟩ := s
  cases position with
  | operand power =>
    obtain rfl := Verdict.invalid.inj h
    exact nofun
  | callee f power =>
    obtain rfl := Verdict.invalid.inj h
    exact nofun
  | operator e powers =>
    cases fs with
    | nil => cases h
    | cons f fs =>
      obtain rfl : f.opener.unclosed = error := Verdict.invalid.inj h
      exact not_lasting_unclosed f.opener

/-- A lasting error leaves tokens over. -/
theorem Ending.rest_ne_nil (h : Ending asked outer s ts o) (ho : o.whole = .invalid error)
    (herror : error.Lasting) : o.rest ≠ [] := by
  cases h with
  | finished htakes =>
    have hfinish := whole_of_rest_nil.symm.trans ho
    exact absurd herror (not_lasting_of_finish hfinish)
  | stuck _ _ => exact List.cons_ne_nil _ _
  | tooDeep _ _ _ => exact List.cons_ne_nil _ _

/-! ### Derivations of longer lists -/

/-- After a lasting error, more tokens leave the derivation as it is. -/
theorem parse_append_of_lasting (h : (parse ts).verdict = .invalid error)
    (herror : error.Lasting) (us : List Token) : parse (ts ++ us) = parse ts := by
  obtain ⟨o, ho⟩ := exists_ending_start ts
  rw [ho.parse_eq] at h
  have hrest : o.rest ≠ [] := ho.rest_ne_nil h herror
  rw [(ho.append_rest hrest us).parse_eq, ho.parse_eq, whole_append_rest hrest]

/-- The steps of tokens that are taken come first. -/
theorem Takes.prefix_taken (h : Takes .expression 0 .start ts steps s) (us : List Token) :
    steps <+: (parse (ts ++ us)).taken := by
  have hrun : run .expression 0 .start [] (ts ++ us) =
      run .expression 0 s (steps.reverse ++ []) us := h.run_append [] us
  rw [parse, hrun, run_taken, List.append_nil, List.reverse_reverse]
  exact List.prefix_append _ _

/-- More tokens do not take back that a token is unexpected, that tokens are left over or that
parentheses nest too deep, and they do not change the steps before such an error.  Where an operand
is missing at the end, the steps before this error are the first ones of the longer list.  So no
beginning of a valid list has one of the three errors. -/
theorem parse_append :
    (∀ (ts us : List Token) (error : ParseError), error.Lasting →
      (parse ts).verdict = .invalid error →
        (parse (ts ++ us)).verdict = .invalid error ∧
          (parse (ts ++ us)).steps = (parse ts).steps) ∧
    (∀ ts us : List Token, (parse ts).verdict = .invalid .unexpectedEnd →
      (parse ts).steps.dropLast <+: (parse (ts ++ us)).steps) ∧
    ∀ (ts q : List Token) (error : ParseError), (parse ts).isValid = true → q <+: ts →
      error.Lasting → (parse q).verdict ≠ .invalid error := by
  refine ⟨?_, ?_, ?_⟩
  · intro ts us error herror h
    rw [parse_append_of_lasting h herror us]
    exact ⟨h, rfl⟩
  · intro ts us h
    obtain ⟨steps, s, htakes, hs⟩ := verdict_parse_eq_unexpectedEnd_iff.1 h
    rw [htakes.dropLast_steps_parse hs]
    exact (htakes.prefix_taken us).trans (List.prefix_append _ _)
  · rintro ts q error hvalid ⟨us, rfl⟩ herror h
    obtain ⟨e, he⟩ := Verdict.isValid_iff.1 hvalid
    rw [parse_append_of_lasting h herror us, h] at he
    cases he

/-- A sum after `2)` does not take the error back, a number after `2*` leaves the step before it,
and `2*` is no beginning with tokens left over. -/
theorem parse_append_closing :
    ((parse [.number "2", .closing]).verdict = .invalid .trailingTokens ∧
      (parse [.number "2", .closing, .operator '+', .number "3"]).verdict =
        .invalid .trailingTokens) ∧
    ((parse [.number "2", .operator '*']).verdict = .invalid .unexpectedEnd ∧
      [.literal "2"] <+: (parse [.number "2", .operator '*', .number "3"]).steps) ∧
    ((parse [.number "2", .operator '*', .number "3"]).isValid = true ∧
      (parse [.number "2", .operator '*']).verdict ≠ .invalid .trailingTokens) := by
  have htrailing : (parse [.number "2", .closing]).verdict = .invalid .trailingTokens := by rfl
  have hend : (parse [.number "2", .operator '*']).verdict = .invalid .unexpectedEnd := by rfl
  have hvalid : (parse [.number "2", .operator '*', .number "3"]).isValid = true := by rfl
  have hprefix : [Token.number "2", .operator '*'] <+:
      [.number "2", .operator '*', .number "3"] := List.prefix_append _ [Token.number "3"]
  refine ⟨⟨htrailing, ?_⟩, ⟨hend, ?_⟩, hvalid, ?_⟩
  · exact (parse_append.1 _ [.operator '+', .number "3"] _ .trailingTokens htrailing).1
  · exact parse_append.2.1 _ [.number "3"] hend
  · exact parse_append.2.2 _ _ _ hvalid hprefix .trailingTokens

/-- A parenthesis that is missing at the end may still come. -/
example :
    (parse [.opening, .number "1"]).verdict = .invalid .unmatchedParenthesis ∧
      (parse [.opening, .number "1", .closing]).isValid = true := by
  constructor <;> rfl

end InfixArith
