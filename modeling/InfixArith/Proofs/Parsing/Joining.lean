import InfixArith.Proofs.Parsing.Counts
import InfixArith.Proofs.Parsing.Root
import InfixArith.Proofs.Reading.Shape

/-!
# Building valid lists from valid lists

An operator between two valid lists does not make one operand of each of them: what stands next to
it is joined first.  Still the whole is valid, because the state after the operator takes the same
tokens as the start does (`Takes.exists_takes_operator`), whatever waits in it.  The one exception
is `^` after a factorial sign.  A factorial sign may always stand after a valid list, and the name
of a function before one in parentheses, as long as these are not too many (`operations_of_valid`).
-/

namespace InfixArith

variable {s : State} {a b ts : List Token} {e e' : Expr} {op : BinaryOp} {steps : List Step}

/-! ### Binary operators -/

/-- A sign may stand after a list, unless it is `^` and a factorial sign comes last. -/
theorem continues_operator_iff_not_endsInFactorial :
    Continues a (.operator op.symbol) ↔ (op = .exponentiate → ¬ EndsInFactorial a) := by
  rw [continues_operator_iff]
  simp [EndsInFactorial]

/-- A state like one that stops with an expression stops with an expression. -/
theorem State.Alike.exists_finish_eq_valid {s' : State} (h : s.Alike s')
    (hs : s.finish.2 = .valid e) : ∃ e', s'.finish.2 = .valid e' := by
  obtain ⟨sum, product, e₀, powers, rfl, -⟩ := finish_eq_valid_iff.1 hs
  obtain ⟨fs', sum', product', position'⟩ := s'
  obtain ⟨hframes, hposition⟩ := h
  cases hposition
  obtain rfl : fs' = [] := List.length_eq_zero_iff.1 hframes.symm
  exact ⟨_, rfl⟩

/-- After a valid list and a sign that continues it, the state is like the one at the start. -/
theorem Takes.exists_takes_operator (h : Takes .expression 0 .start a steps s)
    (hs : s.finish.2 = .valid e) (hop : Continues a (.operator op.symbol)) :
    ∃ steps' s', Takes .expression 0 s [.operator op.symbol] steps' s' ∧ State.start.Alike s' := by
  have ha : a ≠ [] := h.ne_nil_of_valid hs
  have hroom : 0 ≤ s.room 0 := h.room_nonneg
  obtain ⟨sum, product, e', powers, rfl, -⟩ := finish_eq_valid_iff.1 hs
  have hpowers : op = .exponentiate → powers = true := fun heq =>
    (h.shifts.powers_iff ha rfl).2 ((continues_operator_iff op).1 hop heq)
  have hshift : ∃ steps' s', Shift .expression ⟨[], sum, product, .operator e' powers⟩
      (.operator op.symbol) steps' s' ∧ s'.frames = [] ∧ ∃ power, s'.position = .operand power :=
    exists_shift_operator op hpowers
  obtain ⟨steps', s', hshift, hframes, power, hposition⟩ := hshift
  have hsign : Token.operator op.symbol ≠ .opening := Token.operator_symbol_ne_opening op
  refine ⟨steps', s', .of_shift hshift hroom fun heq => absurd heq hsign, ?_, ?_⟩
  · rw [hframes]
    rfl
  · rw [hposition]
    exact .operand none power

/-- Two valid lists are valid with an operator between them that continues the first one. -/
theorem isValid_append_operator (ha : (parse a).isValid = true) (hb : (parse b).isValid = true)
    (hop : Continues a (.operator op.symbol)) :
    (parse (a ++ .operator op.symbol :: b)).isValid = true := by
  obtain ⟨e, he⟩ := Verdict.isValid_iff.1 ha
  obtain ⟨e', he'⟩ := Verdict.isValid_iff.1 hb
  obtain ⟨_, s, hfirst, hs⟩ := verdict_parse_eq_valid_iff_takes.1 he
  obtain ⟨_, s₁, hsecond, hs₁⟩ := verdict_parse_eq_valid_iff_takes.1 he'
  obtain ⟨_, s', hsign, halike⟩ := hfirst.exists_takes_operator hs hop
  -- The second list is read after the sign as it is read by itself.
  obtain ⟨_, s₁', hsecond', halike'⟩ := hsecond.exists_of_alike halike
  obtain ⟨e'', hs₁'⟩ := halike'.exists_finish_eq_valid hs₁
  have hall := (hfirst.append hsign).append hsecond'
  rw [List.append_assoc, List.singleton_append] at hall
  exact Verdict.isValid_iff.2 ⟨e'', verdict_parse_eq_valid_iff_takes.2 ⟨_, s₁', hall, hs₁'⟩⟩

/-- Two valid lists are valid with an operator between them exactly when it continues the first one.
-/
theorem isValid_append_operator_iff (ha : (parse a).isValid = true)
    (hb : (parse b).isValid = true) :
    (parse (a ++ .operator op.symbol :: b)).isValid = true ↔
      Continues a (.operator op.symbol) := by
  refine ⟨fun hvalid => ?_, isValid_append_operator ha hb⟩
  by_contra hsign
  rw [parse_append_of_not_continues ha hsign] at hvalid
  cases hvalid

/-- An operator between two valid lists is one more node and one more step. -/
theorem counts_append_operator {e'' : Expr} (ha : (parse a).verdict = .valid e)
    (hb : (parse b).verdict = .valid e')
    (h : (parse (a ++ .operator op.symbol :: b)).verdict = .valid e'') :
    e''.nodeCount = e.nodeCount + e'.nodeCount + 1 ∧
      (parse (a ++ .operator op.symbol :: b)).steps.length =
        (parse a).steps.length + (parse b).steps.length := by
  have hparenthesis : ¬ (Token.operator op.symbol).isParenthesis = true :=
    Token.not_isParenthesis_symbol op
  have hfunction : ¬ (Token.operator op.symbol).isFunction = true := Bool.false_ne_true
  have hnodes := nodeCount_of_valid h
  have hsteps := length_steps_of_valid h
  rw [List.countP_append, List.countP_cons_of_neg hparenthesis, List.length_append,
    List.length_cons] at hnodes
  rw [List.countP_append, List.countP_cons_of_neg hfunction, List.length_append,
    List.length_cons] at hsteps
  have hnodesLeft := nodeCount_of_valid ha
  have hnodesRight := nodeCount_of_valid hb
  have hstepsLeft := length_steps_of_valid ha
  have hstepsRight := length_steps_of_valid hb
  omega

/-! ### Factorial signs and functions -/

/-- A factorial sign after a valid list is one more node and one more step. -/
theorem exists_valid_append_factorial (h : (parse a).verdict = .valid e) (text : String) :
    ∃ e', (parse (a ++ [⟨.factorial, text⟩])).verdict = .valid e' ∧
      e'.nodeCount = e.nodeCount + 1 ∧
      (parse (a ++ [⟨.factorial, text⟩])).steps.length = (parse a).steps.length + 1 := by
  obtain ⟨steps, s, htakes, hs⟩ := verdict_parse_eq_valid_iff_takes.1 h
  have hroom : 0 ≤ s.room 0 := htakes.room_nonneg
  obtain ⟨sum, product, e₀, powers, rfl, -⟩ := finish_eq_valid_iff.1 hs
  have hsign : Takes .expression 0 ⟨[], sum, product, .operator e₀ powers⟩ [⟨.factorial, text⟩]
      [.factorial] ⟨[], sum, product, .operator (.factorial e₀) false⟩ :=
    .of_shift (.factorial text (by simp)) hroom nofun
  have hvalid : (parse (a ++ [⟨.factorial, text⟩])).verdict =
      .valid (sum.join (product.join (.factorial e₀))) :=
    verdict_parse_eq_valid_iff_takes.2 ⟨_, _, htakes.append hsign, rfl⟩
  have hparenthesis : List.countP Token.isParenthesis [⟨.factorial, text⟩] = 0 := rfl
  have hfunction : List.countP Token.isFunction [⟨.factorial, text⟩] = 0 := rfl
  have hnodes := nodeCount_of_valid hvalid
  have hsteps := length_steps_of_valid hvalid
  rw [List.countP_append, hparenthesis, List.length_append, List.length_singleton] at hnodes
  rw [List.countP_append, hfunction, List.length_append, List.length_singleton] at hsteps
  have hnodesBefore := nodeCount_of_valid h
  have hstepsBefore := length_steps_of_valid h
  exact ⟨_, hvalid, by omega, by omega⟩

/-- A function applied to a valid list is valid unless the parentheses are one too many. -/
theorem verdict_parse_call (h : (parse a).verdict = .valid e) (f : Func) :
    ((∀ q, q <+: a → Token.depth q ≠ 128) →
      (parse (.function f.name :: .opening :: (a ++ [.closing]))).verdict = .valid (.call f e)) ∧
    ((∃ q, q <+: a ∧ Token.depth q = 128) →
      (parse (.function f.name :: .opening :: (a ++ [.closing]))).verdict =
        .invalid (.nestingTooDeep 128)) := by
  obtain ⟨hderives, hwithin⟩ := verdict_parse_eq_valid_iff.1 h
  have hcall : Derives .expression (.function f.name :: .opening :: (a ++ [.closing]))
      (.call f e) := (hderives.call f).of_rank_le (Nat.zero_le _)
  have hroom : Token.NestsWithin nestingLimit (.function f.name :: .opening :: (a ++ [.closing])) ↔
      ∀ q, q <+: a → Token.depth q ≠ 128 := Token.nestsWithin_call.trans hwithin.sub_one_iff
  constructor
  · intro hdepth
    exact hcall.verdict_parse (hroom.2 hdepth)
  · rintro ⟨q, hq, hdepth⟩
    exact hcall.verdict_parse_of_not_nestsWithin fun hnests => hroom.1 hnests q hq hdepth

/-- Two valid lists with a binary operator between them are valid, but not with `^` after a
factorial sign, where the operator and the second list are left over; the whole has one node more
than both have and as many steps.  A valid list with a factorial sign after it is valid and has one
node and one step more.  A function applied to a valid list is valid and is the call of its
expression, if no beginning of the list leaves 128 parentheses open, and nests too deep
otherwise. -/
theorem operations_of_valid :
    (∀ (a b : List Token) (e e' : Expr), (parse a).verdict = .valid e →
      (parse b).verdict = .valid e' → ∀ op : BinaryOp,
        ((parse (a ++ .operator op.symbol :: b)).isValid = true ↔
          (op = .exponentiate → ¬ EndsInFactorial a)) ∧
        (op = .exponentiate → EndsInFactorial a →
          (parse (a ++ .operator op.symbol :: b)).verdict = .invalid .trailingTokens) ∧
        ∀ e'', (parse (a ++ .operator op.symbol :: b)).verdict = .valid e'' →
          e''.nodeCount = e.nodeCount + e'.nodeCount + 1 ∧
            (parse (a ++ .operator op.symbol :: b)).steps.length =
              (parse a).steps.length + (parse b).steps.length) ∧
    (∀ (a : List Token) (e : Expr) (text : String), (parse a).verdict = .valid e →
      ∃ e', (parse (a ++ [⟨.factorial, text⟩])).verdict = .valid e' ∧
        e'.nodeCount = e.nodeCount + 1 ∧
        (parse (a ++ [⟨.factorial, text⟩])).steps.length = (parse a).steps.length + 1) ∧
    ∀ (a : List Token) (e : Expr) (f : Func), (parse a).verdict = .valid e →
      ((parse (.function f.name :: .opening :: (a ++ [.closing]))).isValid = true ↔
        ∀ q, q <+: a → Token.depth q ≠ 128) ∧
      ((∀ q, q <+: a → Token.depth q ≠ 128) →
        (parse (.function f.name :: .opening :: (a ++ [.closing]))).verdict =
          .valid (.call f e)) ∧
      ((∃ q, q <+: a ∧ Token.depth q = 128) →
        (parse (.function f.name :: .opening :: (a ++ [.closing]))).verdict =
          .invalid (.nestingTooDeep 128)) := by
  refine ⟨fun a b e e' ha hb op => ⟨?_, ?_, ?_⟩, fun a e text h => ?_, fun a e f h => ⟨?_, ?_⟩⟩
  · rw [← continues_operator_iff_not_endsInFactorial]
    exact isValid_append_operator_iff (Verdict.isValid_iff.2 ⟨e, ha⟩)
      (Verdict.isValid_iff.2 ⟨e', hb⟩)
  · intro heq hends
    have hsign : ¬ Continues a (.operator op.symbol) := fun hcontinues =>
      continues_operator_iff_not_endsInFactorial.1 hcontinues heq hends
    rw [parse_append_of_not_continues (Verdict.isValid_iff.2 ⟨e, ha⟩) hsign]
  · exact fun e'' h => counts_append_operator ha hb h
  · exact exists_valid_append_factorial h text
  · constructor
    · intro hvalid q hq hdepth
      rw [Derivation.isValid, (verdict_parse_call h f).2 ⟨q, hq, hdepth⟩] at hvalid
      cases hvalid
    · intro hdepth
      exact Verdict.isValid_iff.2 ⟨_, (verdict_parse_call h f).1 hdepth⟩
  · exact verdict_parse_call h f

/-- With `*` between them the valid lists `1+2!` and `3*4` are valid, although no factor of the
whole is one of the lists, and with `^` they are not; `3*4!` is valid, but 128 parentheses around a
number leave no room for those of a call. -/
theorem operations_of_valid_sum :
    ((parse [.number "1", .operator '+', .number "2", .factorial]).verdict =
        .valid (.binary .add (.literal "1") (.factorial (.literal "2"))) ∧
      (parse [.number "3", .operator '*', .number "4"]).verdict =
        .valid (.binary .multiply (.literal "3") (.literal "4"))) ∧
    ((parse [.number "1", .operator '+', .number "2", .factorial, .operator '*', .number "3",
        .operator '*', .number "4"]).isValid = true ∧
      (parse [.number "1", .operator '+', .number "2", .factorial, .operator '*', .number "3",
        .operator '*', .number "4"]).steps.length = 9) ∧
    (EndsInFactorial [.number "1", .operator '+', .number "2", .factorial] ∧
      (parse [.number "1", .operator '+', .number "2", .factorial, .operator '^', .number "3",
        .operator '*', .number "4"]).verdict = .invalid .trailingTokens) ∧
    (parse [.number "3", .operator '*', .number "4", .factorial]).steps.length = 5 ∧
    (((parse (nestedOne 128)).verdict = .valid (.literal "1") ∧
        ∃ q, q <+: nestedOne 128 ∧ Token.depth q = 128) ∧
      (parse (.function "cos" :: .opening :: (nestedOne 128 ++ [.closing]))).verdict =
        .invalid (.nestingTooDeep 128)) := by
  have hsum : (parse [.number "1", .operator '+', .number "2", .factorial]).verdict =
      .valid (.binary .add (.literal "1") (.factorial (.literal "2"))) := by rfl
  have hproduct : (parse [.number "3", .operator '*', .number "4"]).verdict =
      .valid (.binary .multiply (.literal "3") (.literal "4")) := by rfl
  have hnested : (parse (nestedOne 128)).verdict = .valid (.literal "1") :=
    verdict_parse_eq_valid_iff.2 ⟨derives_nestedOne 128, nestsWithin_nestedOne 128⟩
  have hends : EndsInFactorial [.number "1", .operator '+', .number "2", .factorial] :=
    endsInFactorial_concat [.number "1", .operator '+', .number "2"] "!"
  have hdeep : ∃ q, q <+: nestedOne 128 ∧ Token.depth q = 128 :=
    ⟨_, List.prefix_append _ _, Token.depth_replicate_opening 128⟩
  obtain ⟨hoperators, hfactorial, hcall⟩ := operations_of_valid
  obtain ⟨hmultiply, -, hcounts⟩ := hoperators _ _ _ _ hsum hproduct .multiply
  obtain ⟨-, hpower, -⟩ := hoperators _ _ _ _ hsum hproduct .exponentiate
  have hvalid := hmultiply.2 nofun
  obtain ⟨e, he⟩ := Verdict.isValid_iff.1 hvalid
  obtain ⟨-, -, -, hsteps⟩ := hfactorial _ _ "!" hproduct
  exact ⟨⟨hsum, hproduct⟩, ⟨hvalid, (hcounts e he).2⟩, ⟨hends, hpower rfl hends⟩, hsteps,
    ⟨hnested, hdeep⟩, (hcall _ _ .cos hnested).2.2 hdeep⟩

end InfixArith
