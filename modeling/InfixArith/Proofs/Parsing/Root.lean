import InfixArith.Proofs.Grammar.TopLevel
import InfixArith.Proofs.Parsing.Characterization
import InfixArith.Proofs.Reading.Refusal

/-!
# The root of an expression

The root of a valid expression is found without reading it from the left: it is the last operator
outside of all parentheses, of the loosest rule that has one there (`root_of_valid`).  The factorial
sign takes part in this at the end of the tokens only, looser than `^` and tighter than `*`.  What
stands on both sides of the operator is valid by itself.
-/

namespace InfixArith

/-- The expression is joined by the last operator of the rule outside of all parentheses, from the
expressions of the tokens before it and after it. -/
def JoinedAtLast (r : Rule) (ts : List Token) (e : Expr) : Prop :=
  ∃ us op vs e₁ e₂, LastOperator r ts us op vs ∧ (parse us).verdict = .valid e₁ ∧
    (parse vs).verdict = .valid e₂ ∧ e = .binary op e₁ e₂

variable {r : Rule} {ts : List Token} {e : Expr}

/-- Phrases of all rules are valid, as long as their parentheses are not too many. -/
theorem Derives.verdict_parse (h : Derives r ts e) (hts : Token.NestsWithin nestingLimit ts) :
    (parse ts).verdict = .valid e :=
  verdict_parse_eq_valid_iff.2 ⟨h.of_rank_le (Nat.zero_le _), hts⟩

/-- A phrase with an operator of its rule outside of all parentheses is joined at the last one, and
both sides are valid. -/
theorem Derives.joinedAtLast (h : Derives r ts e) (hwithin : Token.NestsWithin nestingLimit ts)
    (hts : HasOperator r ts) : JoinedAtLast r ts e := by
  obtain ⟨us, op, vs, e₁, e₂, hlast, hleft, hright, rfl⟩ := h.exists_lastOperator hts
  obtain rfl : ts = us ++ .operator op.symbol :: vs := hlast.topLevel.tokens_eq
  obtain ⟨hus, hrest⟩ := Token.nestsWithin_append.1 hwithin
  obtain ⟨-, hvs⟩ := Token.nestsWithin_cons.1 hrest
  rw [hlast.topLevel.depth_eq, Token.depth_operator_symbol, Int.sub_zero, Int.sub_zero] at hvs
  exact ⟨us, op, vs, e₁, e₂, hlast, hleft.verdict_parse hus, hright.verdict_parse hvs, rfl⟩

/-- A power does not end in a factorial sign. -/
theorem Derives.not_endsInFactorial (h : Derives .power ts e) : ¬ EndsInFactorial ts := by
  rintro ⟨t, ht, hkind⟩
  -- The run of a power ends where a `^` may follow, and no factorial sign leads there.
  obtain ⟨p, rfl, -⟩ := h.exists_phrase
  obtain ⟨taken, s', hshifts, hafter, -⟩ := p.exists_shifts .start rfl
  obtain rfl : s' = { State.start with position := .operator p.expr true } := hafter
  have hne : p.tokens ≠ [] := by
    intro hnil
    rw [hnil] at ht
    cases ht
  exact (hshifts.powers_iff hne rfl).1 rfl t ht hkind

/-- What stands in parentheses nests no deeper than the parentheses around it. -/
theorem nestsWithin_of_parentheses {k : Int}
    (h : Token.NestsWithin k (.opening :: (ts ++ [.closing]))) : Token.NestsWithin k ts :=
  (Token.nestsWithin_parentheses.1 h).mono (by omega)

/-- The argument of a call nests no deeper than the call. -/
theorem nestsWithin_of_call {k : Int} {f : Func}
    (h : Token.NestsWithin k (.function f.name :: .opening :: (ts ++ [.closing]))) :
    Token.NestsWithin k ts :=
  (Token.nestsWithin_call.1 h).mono (by omega)

/-- The expression of a valid list of tokens has the last `+` or `-` outside of all parentheses at
its root; without one, the last `*` or `/` there; without these, the factorial sign at the end;
without one, the last `^`; and without any of them, the list is a number, or an expression in
parentheses, or a function applied to one. -/
theorem root_of_valid (ts : List Token) (e : Expr) (h : (parse ts).verdict = .valid e) :
    if HasOperator .expression ts then JoinedAtLast .expression ts e
    else if HasOperator .term ts then JoinedAtLast .term ts e
    else if EndsInFactorial ts then
      ∃ us text e', ts = us ++ [⟨.factorial, text⟩] ∧ (parse us).verdict = .valid e' ∧
        e = .factorial e'
    else if HasOperator .power ts then JoinedAtLast .power ts e
    else
      (∃ text, ts = [.number text] ∧ e = .literal text) ∨
        (∃ es, ts = .opening :: (es ++ [.closing]) ∧ (parse es).verdict = .valid e) ∨
          ∃ f es e', ts = .function f.name :: .opening :: (es ++ [.closing]) ∧
            (parse es).verdict = .valid e' ∧ e = .call f e' := by
  obtain ⟨hexpression, hwithin⟩ := verdict_parse_eq_valid_iff.1 h
  by_cases hsum : HasOperator .expression ts
  · rw [if_pos hsum]
    exact hexpression.joinedAtLast hwithin hsum
  rw [if_neg hsum]
  have hterm : Derives .term ts e :=
    hexpression.operand_of_not_hasOperator hsum (by decide) (by decide)
  by_cases hproduct : HasOperator .term ts
  · rw [if_pos hproduct]
    exact hterm.joinedAtLast hwithin hproduct
  rw [if_neg hproduct]
  have hfactor : Derives .factor ts e :=
    hterm.operand_of_not_hasOperator hproduct (by decide) (by decide)
  rcases hfactor.factor_cases with ⟨us, text, e', rfl, hus, rfl⟩ | hpower
  · rw [if_pos (endsInFactorial_concat us text)]
    have hwithin' : Token.NestsWithin nestingLimit us := (Token.nestsWithin_append.1 hwithin).1
    exact ⟨us, text, e', rfl, hus.verdict_parse hwithin', rfl⟩
  rw [if_neg hpower.not_endsInFactorial]
  by_cases hpowers : HasOperator .power ts
  · rw [if_pos hpowers]
    exact hpower.joinedAtLast hwithin hpowers
  rw [if_neg hpowers]
  have hprimary : Derives .primary ts e :=
    hpower.operand_of_not_hasOperator hpowers (by decide) (by decide)
  rcases hprimary.primary_cases with hnumber | ⟨es, rfl, hes⟩ | ⟨f, es, e', rfl, hes, rfl⟩
  · exact .inl hnumber
  · have hwithin' : Token.NestsWithin nestingLimit es := nestsWithin_of_parentheses hwithin
    exact .inr (.inl ⟨es, rfl, hes.verdict_parse hwithin'⟩)
  · have hwithin' : Token.NestsWithin nestingLimit es := nestsWithin_of_call hwithin
    exact .inr (.inr ⟨f, es, e', rfl, hes.verdict_parse hwithin', rfl⟩)

/-- In `9-4-(5-2)^2!` the root is the second `-`; the one in parentheses comes later, but it is not
outside of them.  In `2^3!` it is the factorial sign. -/
theorem root_of_valid_difference :
    (parse [.number "9", .operator '-', .number "4", .operator '-', .opening, .number "5",
        .operator '-', .number "2", .closing, .operator '^', .number "2", .factorial]).verdict =
      .valid (.binary .subtract (.binary .subtract (.literal "9") (.literal "4"))
        (.factorial (.binary .exponentiate (.binary .subtract (.literal "5") (.literal "2"))
          (.literal "2")))) ∧
      JoinedAtLast .expression
        [.number "9", .operator '-', .number "4", .operator '-', .opening, .number "5",
          .operator '-', .number "2", .closing, .operator '^', .number "2", .factorial]
        (.binary .subtract (.binary .subtract (.literal "9") (.literal "4"))
          (.factorial (.binary .exponentiate (.binary .subtract (.literal "5") (.literal "2"))
            (.literal "2")))) ∧
      ∃ us text e', [Token.number "2", .operator '^', .number "3", .factorial] =
          us ++ [⟨.factorial, text⟩] ∧
        (parse us).verdict = .valid e' ∧
        Expr.factorial (.binary .exponentiate (.literal "2") (.literal "3")) = .factorial e' := by
  have hdifference := root_of_valid
    [.number "9", .operator '-', .number "4", .operator '-', .opening, .number "5",
      .operator '-', .number "2", .closing, .operator '^', .number "2", .factorial] _ (by rfl)
  rw [if_pos (by decide)] at hdifference
  have hpower := root_of_valid [.number "2", .operator '^', .number "3", .factorial] _ (by rfl)
  rw [if_neg (by decide), if_neg (by decide), if_pos (by decide)] at hpower
  exact ⟨by rfl, hdifference, hpower⟩

end InfixArith
