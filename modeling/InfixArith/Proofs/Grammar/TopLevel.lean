import InfixArith.Proofs.Grammar.Derives
import InfixArith.Token.Terminal

/-!
# Tokens outside of all parentheses

A token is at the top level of a list when the tokens before it open as many parentheses as they
close (`TopLevel`).  No operator at the top level of a phrase binds looser than the rule of the
phrase (`Derives.rank_le_of_topLevel`).  So a phrase of a rule with operators at its top level is
divided at the last of them (`Derives.exists_lastOperator`), and one with none of them is a phrase
of the next rule (`Derives.operand_of_not_hasOperator`).
-/

namespace InfixArith

/-- No beginning of the list closes more parentheses than it opens. -/
def Token.OpensFirst (ts : List Token) : Prop :=
  ∀ q, q <+: ts → 0 ≤ depth q

/-- The token stands between `us` and `vs`, outside of all parentheses. -/
structure TopLevel (ts us : List Token) (t : Token) (vs : List Token) : Prop where
  /-- The list is made of the tokens before it, the token and those after it. -/
  tokens_eq : ts = us ++ t :: vs
  /-- As many parentheses are opened as closed before it. -/
  depth_eq : Token.depth us = 0

/-- An operator of the rule stands outside of all parentheses. -/
def HasOperator (r : Rule) (ts : List Token) : Prop :=
  ∃ (us : List Token) (op : BinaryOp) (vs : List Token),
    op.rule = r ∧ TopLevel ts us (.operator op.symbol) vs

/-- The last token is a factorial sign. -/
def EndsInFactorial (ts : List Token) : Prop :=
  ∃ t ∈ ts.getLast?, t.kind = .factorial

/-- The operator between `us` and `vs` is the last one of the rule outside of all parentheses. -/
structure LastOperator (r : Rule) (ts us : List Token) (op : BinaryOp) (vs : List Token) :
    Prop where
  /-- It stands outside of all parentheses. -/
  topLevel : TopLevel ts us (.operator op.symbol) vs
  /-- It is an operator of the rule. -/
  rule_eq : op.rule = r
  /-- No other one comes after it. -/
  length_le : ∀ (us' : List Token) (op' : BinaryOp) (vs' : List Token), op'.rule = r →
    TopLevel ts us' (.operator op'.symbol) vs' → us'.length ≤ us.length

variable {r : Rule} {ts ts' us vs : List Token} {t t' : Token} {e : Expr} {op : BinaryOp}

/-- A list with a factorial sign behind it ends in one, whatever the text of the sign. -/
theorem endsInFactorial_concat (us : List Token) (text : String) :
    EndsInFactorial (us ++ [⟨.factorial, text⟩]) :=
  ⟨⟨.factorial, text⟩, List.getLast?_concat, rfl⟩

/-! ### Parentheses are opened first -/

namespace Token

/-- A token that leaves the depth as it is closes nothing. -/
theorem opensFirst_singleton (h : depth [t] = 0) : OpensFirst [t] := by
  intro q hq
  rcases List.prefix_cons_iff.1 hq with rfl | ⟨q', rfl, hq'⟩
  · exact Int.le_refl 0
  · obtain rfl : q' = [] := List.prefix_nil.1 hq'
    exact Int.le_of_eq h.symm

/-- Two lists that close only what they have opened do so one after the other. -/
theorem OpensFirst.append (hts : OpensFirst ts) (hts' : OpensFirst ts') :
    OpensFirst (ts ++ ts') := by
  rintro q ⟨w, hq⟩
  rcases List.append_eq_append_iff.1 hq with ⟨w', rfl, -⟩ | ⟨q', rfl, rfl⟩
  · exact hts q (List.prefix_append q w')
  · have hdepth : 0 ≤ depth ts := hts ts List.prefix_rfl
    have hdepth' : 0 ≤ depth q' := hts' q' (List.prefix_append q' w)
    rw [depth_append]
    omega

/-- Parentheses around a list that closes only what it has opened, and all of it, are opened first.
-/
theorem OpensFirst.parentheses (hts : OpensFirst ts) (hdepth : depth ts = 0) :
    OpensFirst (.opening :: (ts ++ [.closing])) := by
  intro q hq
  rcases List.prefix_cons_iff.1 hq with rfl | ⟨q', rfl, hq'⟩
  · exact Int.le_refl 0
  · have hcons : depth (.opening :: q') = 1 + depth q' := by rw [depth_cons, depth_opening]
    rcases List.prefix_concat_iff.1 hq' with rfl | hinside
    · rw [hcons, depth_append, hdepth, depth_closing]
      decide
    · have hq'' : 0 ≤ depth q' := hts q' hinside
      omega

end Token

/-- A phrase closes only parentheses that it has opened. -/
theorem Derives.opensFirst (h : Derives r ts e) : Token.OpensFirst ts := by
  induction h with
  | number text => exact Token.opensFirst_singleton (Token.depth_number text)
  | group h ih => exact ih.parentheses h.depth_eq_zero
  | call f h ih =>
    have hname : Token.OpensFirst [.function f.name] :=
      Token.opensFirst_singleton (Token.depth_function f.name)
    exact hname.append (ih.parentheses h.depth_eq_zero)
  | operand _ _ ih => exact ih
  | factorial text _ ih =>
    have hsign : Token.OpensFirst [⟨.factorial, text⟩] :=
      Token.opensFirst_singleton (Token.depth_factorial text)
    exact ih.append hsign
  | binary op _ _ _ ih ih' =>
    have hsign : Token.OpensFirst [.operator op.symbol] :=
      Token.opensFirst_singleton (Token.depth_operator_symbol op)
    exact ih.append (hsign.append ih')

/-! ### Where a token at the top level stands -/

namespace TopLevel

/-- The only token of a list is the one at its top level. -/
theorem singleton (h : TopLevel [t'] us t vs) : t = t' := by
  rcases List.singleton_eq_append_iff.1 h.tokens_eq with ⟨-, hcons⟩ | ⟨-, hnil⟩
  · exact (List.cons.inj hcons).1
  · cases hnil

/-- After tokens that close what they open, the top level is that of the tokens that follow. -/
theorem of_append (h : TopLevel (ts ++ ts') us t vs) (hts : Token.depth ts = 0) :
    (∃ w, TopLevel ts us t w) ∨ ∃ us', us = ts ++ us' ∧ TopLevel ts' us' t vs := by
  obtain ⟨htokens, hdepth⟩ := h
  rcases List.append_eq_append_iff.1 htokens with ⟨us', rfl, hrest⟩ | ⟨w, rfl, hrest⟩
  · rw [Token.depth_append, hts, Int.zero_add] at hdepth
    exact .inr ⟨us', rfl, hrest, hdepth⟩
  · rcases List.cons_eq_append_iff.1 hrest with ⟨rfl, hcons⟩ | ⟨w', rfl, -⟩
    · rw [List.append_nil] at hts ⊢
      exact .inr ⟨[], (List.append_nil us).symm, hcons, rfl⟩
    · exact .inl ⟨w', rfl, hdepth⟩

/-- After a token that leaves the depth as it is, the top level is that token and the top level of
the tokens that follow. -/
theorem of_cons (h : TopLevel (t' :: ts) us t vs) (ht' : Token.depth [t'] = 0) :
    (t = t' ∧ us = []) ∨ ∃ us', us = t' :: us' ∧ TopLevel ts us' t vs := by
  have happend : TopLevel ([t'] ++ ts) us t vs := h
  rcases happend.of_append ht' with ⟨w, hw⟩ | hrest
  · refine .inl ⟨hw.singleton, ?_⟩
    rcases List.singleton_eq_append_iff.1 hw.tokens_eq with ⟨hus, -⟩ | ⟨-, hnil⟩
    · exact hus
    · cases hnil
  · exact .inr hrest

/-- Nothing but the opening parenthesis itself is outside of the parentheses around a list. -/
theorem eq_opening (h : TopLevel (.opening :: (ts ++ [.closing])) us t vs)
    (hts : Token.OpensFirst ts) : t = .opening := by
  obtain ⟨htokens, hdepth⟩ := h
  rcases List.cons_eq_append_iff.1 htokens with ⟨-, hcons⟩ | ⟨us', rfl, hrest⟩
  · exact (List.cons.inj hcons).1
  · have hprefix : us' <+: ts ++ [.closing] := ⟨t :: vs, hrest.symm⟩
    rcases List.prefix_concat_iff.1 hprefix with rfl | hinside
    · simp at hrest
    · have hus' : 0 ≤ Token.depth us' := hts us' hinside
      rw [Token.depth_cons, Token.depth_opening] at hdepth
      omega

end TopLevel

/-! ### Deciding what stands at the top level -/

/-- Whether the terminal is an operator of the rule. -/
def Terminal.isOperatorOf (r : Rule) : Terminal → Bool
  | .binary op => decide (op.rule = r)
  | _ => false

/-- A token stands for an operator of the rule when it is the token of one. -/
theorem isOperatorOf_terminal_iff :
    t.terminal.isOperatorOf r = true ↔ ∃ op : BinaryOp, op.rule = r ∧ t = .operator op.symbol := by
  constructor
  · intro h
    cases hterminal : t.terminal with
    | binary op =>
      rw [hterminal] at h
      exact ⟨op, of_decide_eq_true h, Token.terminal_eq_binary_iff.1 hterminal⟩
    | _ =>
      rw [hterminal] at h
      cases h
  · rintro ⟨op, hop, rfl⟩
    rw [Token.terminal_eq_binary_iff.2 rfl]
    exact decide_eq_true hop

/-- An operator of the rule is at the top level when some position has one, and the tokens before
the position close what they open. -/
theorem hasOperator_iff :
    HasOperator r ts ↔
      ∃ i, ∃ h : i < ts.length, ts[i].terminal.isOperatorOf r = true ∧
        Token.depth (ts.take i) = 0 := by
  constructor
  · rintro ⟨us, op, vs, hop, rfl, hdepth⟩
    refine ⟨us.length, by simp, ?_, ?_⟩
    · rw [List.getElem_append_right (Nat.le_refl _)]
      simp only [Nat.sub_self, List.getElem_cons_zero]
      exact isOperatorOf_terminal_iff.2 ⟨op, hop, rfl⟩
    · rw [List.take_left]
      exact hdepth
  · rintro ⟨i, hi, hoperator, hdepth⟩
    obtain ⟨op, hop, htoken⟩ := isOperatorOf_terminal_iff.1 hoperator
    refine ⟨ts.take i, op, ts.drop (i + 1), hop, ?_, hdepth⟩
    rw [← htoken, List.getElem_cons_drop, List.take_append_drop]

instance : Decidable (HasOperator r ts) :=
  decidable_of_iff _ hasOperator_iff.symm

instance : Decidable (EndsInFactorial ts) :=
  inferInstanceAs (Decidable (∃ t ∈ ts.getLast?, t.kind = .factorial))

/-! ### Operators at the top level of a phrase -/

/-- The phrases of a sequence bind tighter than the sequence. -/
theorem Rule.rank_lt_rank_operand (hr : r ≠ .primary) : r.rank < r.operand.rank := by
  revert hr
  cases r <;> decide

/-- No operator at the top level of a phrase belongs to a looser rule. -/
theorem Derives.rank_le_of_topLevel (h : Derives r ts e)
    (ht : TopLevel ts us (.operator op.symbol) vs) : r.rank ≤ op.rule.rank := by
  induction h generalizing us vs with
  | number text => cases ht.singleton
  | group h _ => exact absurd (ht.eq_opening h.opensFirst) (Token.operator_symbol_ne_opening op)
  | call f h _ =>
    rcases ht.of_cons (Token.depth_function f.name) with ⟨hname, -⟩ | ⟨us', -, hrest⟩
    · cases hname
    · exact absurd (hrest.eq_opening h.opensFirst) (Token.operator_symbol_ne_opening op)
  | @operand r ts e hr _ ih => exact Nat.le_trans r.rank_le_rank_operand (ih ht)
  | factorial text h ih =>
    rcases ht.of_append h.depth_eq_zero with ⟨w, hw⟩ | ⟨us', -, hrest⟩
    · exact ih hw
    · cases hrest.singleton
  | @binary r op' hop ts ts' e e' h _ ih ih' =>
    rcases ht.of_append h.depth_eq_zero with ⟨w, hw⟩ | ⟨us', -, hrest⟩
    · exact ih hw
    · rcases hrest.of_cons (Token.depth_operator_symbol op') with ⟨hsign, -⟩ | ⟨us'', -, hright⟩
      · obtain rfl : op = op' := Token.operator_symbol_injective hsign
        exact Nat.le_of_eq (congrArg Rule.rank hop.symm)
      · exact Nat.le_trans r.rank_le_rank_operand (ih' hright)

/-- A phrase of the next rule has no operator of the rule at its top level. -/
theorem Derives.not_hasOperator (h : Derives r.operand ts e) (hr : r ≠ .primary) :
    ¬ HasOperator r ts := by
  rintro ⟨us, op, vs, rfl, htop⟩
  have hle : op.rule.operand.rank ≤ op.rule.rank := h.rank_le_of_topLevel htop
  exact absurd (Rule.rank_lt_rank_operand hr) (Nat.not_lt.2 hle)

/-- The operator between a phrase of its rule and one of the next rule is the last one. -/
theorem Derives.lastOperator (h : Derives r ts e) (hop : op.rule = r) {e' : Expr}
    (h' : Derives r.operand ts' e') :
    LastOperator r (ts ++ .operator op.symbol :: ts') ts op ts' := by
  refine ⟨⟨rfl, h.depth_eq_zero⟩, hop, ?_⟩
  intro us' op' vs' hop' htop
  have hr : r ≠ .primary := by
    rintro rfl
    cases op <;> cases hop
  -- Another operator of the rule is on the left, where it comes earlier, or it is this one: there
  -- is none on the right.
  rcases htop.of_append h.depth_eq_zero with ⟨w, hw⟩ | ⟨us'', rfl, hrest⟩
  · rw [hw.tokens_eq, List.length_append]
    exact Nat.le_add_right _ _
  · rcases hrest.of_cons (Token.depth_operator_symbol op) with ⟨-, rfl⟩ | ⟨w, rfl, hright⟩
    · exact Nat.le_of_eq (congrArg List.length (List.append_nil ts))
    · exact absurd ⟨w, op', vs', hop', hright⟩ (h'.not_hasOperator hr)

/-- A phrase with operators of its rule at the top level is joined by the last of them. -/
theorem Derives.exists_lastOperator (h : Derives r ts e) (hts : HasOperator r ts) :
    ∃ us op vs e₁ e₂, LastOperator r ts us op vs ∧ Derives r us e₁ ∧ Derives r.operand vs e₂ ∧
      e = .binary op e₁ e₂ := by
  obtain ⟨us, op, vs, hop, htop⟩ := hts
  cases h with
  | operand hr h => exact absurd ⟨us, op, vs, hop, htop⟩ (h.not_hasOperator hr)
  | binary op' hop' h h' => exact ⟨_, op', _, _, _, h.lastOperator hop' h', h, h', rfl⟩
  | _ => cases op <;> cases hop

/-- A phrase without an operator of its rule at the top level is one of the next rule. -/
theorem Derives.operand_of_not_hasOperator (h : Derives r ts e) (hts : ¬ HasOperator r ts)
    (hfactor : r ≠ .factor) (hprimary : r ≠ .primary) : Derives r.operand ts e := by
  cases h with
  | operand _ h => exact h
  | factorial text h => exact absurd rfl hfactor
  | binary op hop h h' => exact absurd ⟨_, op, _, hop, rfl, h.depth_eq_zero⟩ hts
  | _ => exact absurd rfl hprimary

/-! ### Phrases without operators -/

/-- A factor is the factorial of a factor or a power. -/
theorem Derives.factor_cases (h : Derives .factor ts e) :
    (∃ us text e', ts = us ++ [⟨.factorial, text⟩] ∧ Derives .factor us e' ∧ e = .factorial e') ∨
      Derives .power ts e := by
  cases h with
  | operand _ h => exact .inr h
  | factorial text h => exact .inl ⟨_, text, _, rfl, h, rfl⟩
  | binary op hop => cases op <;> cases hop

/-- A primary is a number, a group or a call. -/
theorem Derives.primary_cases (h : Derives .primary ts e) :
    (∃ text, ts = [.number text] ∧ e = .literal text) ∨
      (∃ es, ts = .opening :: (es ++ [.closing]) ∧ Derives .expression es e) ∨
        ∃ f es e', ts = .function f.name :: .opening :: (es ++ [.closing]) ∧
          Derives .expression es e' ∧ e = .call f e' := by
  cases h with
  | number text => exact .inl ⟨text, rfl, rfl⟩
  | group h => exact .inr (.inl ⟨_, rfl, h⟩)
  | call f h => exact .inr (.inr ⟨f, _, _, rfl, h, rfl⟩)
  | operand hr _ => exact absurd rfl hr
  | binary op hop => cases op <;> cases hop

end InfixArith
