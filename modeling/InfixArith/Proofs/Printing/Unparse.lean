import InfixArith.Proofs.Parsing.Characterization

/-!
# Printing with as few parentheses as possible

`Expr.unparse r e` is the list of tokens that stands for the expression `e` where a phrase of the
rule `r` is needed, with parentheses only where the grammar asks for them.  It derives `e`
(`derives_unparse`), and every list that derives `e` becomes this one when some pairs of its
parentheses are taken away (`Derives.unwraps_unparse`), which never makes it nest deeper
(`Unwraps.nestsWithin`).
-/

namespace InfixArith

/-! ### The tokens of an expression -/

/-- The loosest rule that the expression is a phrase of without parentheses around it. -/
def Expr.rule : Expr → Rule
  | literal _ => .primary
  | binary op _ _ => op.rule
  | factorial _ => .factor
  | call _ _ => .primary

/-- The tokens of a phrase of the rule `own` where one of the rule `asked` is needed. -/
def Rule.enclose (asked own : Rule) (ts : List Token) : List Token :=
  if own.rank < asked.rank then .opening :: (ts ++ [.closing]) else ts

/-- The tokens of an expression where a phrase of the rule is needed. -/
def Expr.unparse (r : Rule) : Expr → List Token
  | literal text => r.enclose .primary [.number text]
  | binary op e e' =>
    r.enclose op.rule
      (e.unparse op.rule ++ .operator op.symbol :: e'.unparse op.rule.operand)
  | factorial e => r.enclose .factor (e.unparse .factor ++ [.factorial])
  | call f e =>
    r.enclose .primary (.function f.name :: .opening :: (e.unparse .expression ++ [.closing]))

/-- The token with the text that it is read from. -/
def Token.plain (t : Token) : Token :=
  if t.isFactorial then .factorial else t

/-- The second list is the first one without some of its parentheses. -/
inductive ErasesParentheses : List Token → List Token → Prop
  /-- Nothing is left. -/
  | nil : ErasesParentheses [] []
  /-- A token is kept. -/
  | keep (t : Token) {ts us : List Token} (h : ErasesParentheses ts us) :
      ErasesParentheses (t :: ts) (t :: us)
  /-- An opening parenthesis is left out. -/
  | opening {ts us : List Token} (h : ErasesParentheses ts us) :
      ErasesParentheses (.opening :: ts) us
  /-- A closing parenthesis is left out. -/
  | closing {ts us : List Token} (h : ErasesParentheses ts us) :
      ErasesParentheses (.closing :: ts) us

variable {r r' asked own : Rule} {ts us : List Token} {e : Expr} {k : Int}

/-- A phrase that binds as tightly as is needed has no parentheses around it. -/
theorem enclose_of_rank_le (h : asked.rank ≤ own.rank) : asked.enclose own ts = ts :=
  if_neg (Nat.not_lt.2 h)

/-- A phrase that binds looser than is needed has parentheses around it. -/
theorem enclose_of_rank_lt (h : own.rank < asked.rank) :
    asked.enclose own ts = .opening :: (ts ++ [.closing]) :=
  if_pos h

/-- No rule binds tighter than that of primaries. -/
theorem rank_le_primary (r : Rule) : r.rank ≤ Rule.primary.rank := by
  cases r <;> decide

/-- What is needed decides about the outermost parentheses only. -/
theorem unparse_eq_enclose (r : Rule) (e : Expr) :
    e.unparse r = r.enclose e.rule (e.unparse .expression) := by
  have hloosest (own : Rule) (ts : List Token) : Rule.expression.enclose own ts = ts :=
    enclose_of_rank_le (Nat.zero_le _)
  cases e <;> simp only [Expr.unparse, Expr.rule, hloosest]

/-! ### The tokens derive the expression -/

/-- A phrase is one of the rule that is needed when it is enclosed for it. -/
theorem Derives.enclose (h : Derives own ts e) (asked : Rule) :
    Derives asked (asked.enclose own ts) e := by
  by_cases hrank : own.rank < asked.rank
  · rw [enclose_of_rank_lt hrank]
    have hexpression : Derives .expression ts e := h.of_rank_le (Nat.zero_le _)
    exact hexpression.group.of_rank_le (rank_le_primary asked)
  · rw [enclose_of_rank_le (Nat.not_lt.1 hrank)]
    exact h.of_rank_le (Nat.not_lt.1 hrank)

/-- The tokens of an expression are a phrase of the rule that is needed, with this expression. -/
theorem derives_unparse (r : Rule) (e : Expr) : Derives r (e.unparse r) e := by
  induction e generalizing r with
  | literal text => exact (Derives.number text).enclose r
  | binary op e e' ih ih' => exact (Derives.binary op rfl (ih _) (ih' _)).enclose r
  | factorial e ih => exact (Derives.factorial _ (ih _)).enclose r
  | call f e ih => exact (Derives.call f (ih _)).enclose r

/-! ### Taking parentheses away -/

/-- The second list is the first one without some pairs of parentheses. -/
inductive Unwraps : List Token → List Token → Prop
  /-- Nothing is taken away. -/
  | refl (ts : List Token) : Unwraps ts ts
  /-- Pairs are taken away at two places. -/
  | append {ts ts' us us' : List Token} (h : Unwraps ts ts') (h' : Unwraps us us') :
      Unwraps (ts ++ us) (ts' ++ us')
  /-- A pair is taken away. -/
  | parentheses (ts : List Token) : Unwraps (.opening :: (ts ++ [.closing])) ts
  /-- Pairs are taken away one after the other. -/
  | trans {ts us vs : List Token} (h : Unwraps ts us) (h' : Unwraps us vs) : Unwraps ts vs

/-- Pairs may be taken away behind a token. -/
theorem Unwraps.cons (t : Token) (h : Unwraps ts us) : Unwraps (t :: ts) (t :: us) :=
  .append (.refl [t]) h

/-- Taking pairs of parentheses away leaves the depth as it is. -/
theorem Unwraps.depth_eq (h : Unwraps ts us) : Token.depth ts = Token.depth us := by
  induction h with
  | refl ts => rfl
  | append _ _ ih ih' => rw [Token.depth_append, Token.depth_append, ih, ih']
  | parentheses ts =>
    rw [Token.depth_cons, Token.depth_append, Token.depth_opening, Token.depth_closing]
    omega
  | trans _ _ ih ih' => exact ih.trans ih'

/-- Without some pairs of its parentheses a list does not nest deeper. -/
theorem Unwraps.nestsWithin (h : Unwraps ts us) (hts : Token.NestsWithin k ts) :
    Token.NestsWithin k us := by
  induction h generalizing k with
  | refl ts => exact hts
  | append h _ ih ih' =>
    obtain ⟨hleft, hright⟩ := Token.nestsWithin_append.1 hts
    refine Token.nestsWithin_append.2 ⟨ih hleft, ?_⟩
    -- Pairs leave the depth as it is, so the second part has the room that it had before.
    rw [← h.depth_eq]
    exact ih' hright
  | parentheses ts => exact (Token.nestsWithin_parentheses.1 hts).mono (by omega)
  | trans _ _ ih ih' => exact ih' (ih hts)

/-- No parenthesis need be left out. -/
theorem ErasesParentheses.refl (ts : List Token) : ErasesParentheses ts ts := by
  induction ts with
  | nil => exact .nil
  | cons t ts ih => exact .keep t ih

/-- Parentheses may be left out of two lists one after the other. -/
theorem ErasesParentheses.append {ts' us' : List Token} (h : ErasesParentheses ts ts')
    (h' : ErasesParentheses us us') : ErasesParentheses (ts ++ us) (ts' ++ us') := by
  induction h with
  | nil => exact h'
  | keep t _ ih => exact .keep t ih
  | opening _ ih => exact .opening ih
  | closing _ ih => exact .closing ih

/-- Parentheses may be left out in two rounds. -/
theorem ErasesParentheses.trans {vs : List Token} (h : ErasesParentheses ts us)
    (h' : ErasesParentheses us vs) : ErasesParentheses ts vs := by
  induction h generalizing vs with
  | nil => exact h'
  | keep t _ ih =>
    cases h' with
    | keep _ h' => exact .keep t (ih h')
    | opening h' => exact .opening (ih h')
    | closing h' => exact .closing (ih h')
  | opening _ ih => exact .opening (ih h')
  | closing _ ih => exact .closing (ih h')

/-- A list without some pairs of its parentheses is one without some of its parentheses. -/
theorem Unwraps.erasesParentheses (h : Unwraps ts us) : ErasesParentheses ts us := by
  induction h with
  | refl ts => exact .refl ts
  | append _ _ ih ih' => exact ih.append ih'
  | parentheses ts =>
    have hright : ErasesParentheses (ts ++ [.closing]) (ts ++ []) :=
      (ErasesParentheses.refl ts).append (.closing .nil)
    rw [List.append_nil] at hright
    exact .opening hright
  | trans _ _ ih ih' => exact ih.trans ih'

/-! ### Every list of an expression unwraps to its printed one -/

/-- A factorial token is read from the text `!`. -/
theorem plain_factorial (text : String) : Token.plain ⟨.factorial, text⟩ = .factorial :=
  rfl

/-- The text that a token is read from does not change the depth. -/
theorem depth_plain (t : Token) : Token.depth [t.plain] = Token.depth [t] := by
  by_cases ht : t.isFactorial = true
  · obtain ⟨kind, text⟩ := t
    obtain rfl : kind = .factorial := Token.isFactorial_iff.1 ht
    rw [plain_factorial, Token.factorial, Token.depth_factorial, Token.depth_factorial]
  · rw [Token.plain, if_neg ht]

/-- The texts that tokens are read from do not change how deep they nest. -/
theorem nestsWithin_map_plain :
    Token.NestsWithin k (ts.map Token.plain) ↔ Token.NestsWithin k ts := by
  induction ts generalizing k with
  | nil => rfl
  | cons t ts ih =>
    rw [List.map_cons, Token.nestsWithin_cons, Token.nestsWithin_cons, ih, depth_plain]

/-- A tighter rule asks for more parentheses. -/
theorem unwraps_enclose (h : asked.rank ≤ r.rank) (own : Rule) (ts : List Token) :
    Unwraps (r.enclose own ts) (asked.enclose own ts) := by
  by_cases hown : own.rank < asked.rank
  · rw [enclose_of_rank_lt hown, enclose_of_rank_lt (Nat.lt_of_lt_of_le hown h)]
    exact .refl _
  · rw [enclose_of_rank_le (Nat.not_lt.1 hown)]
    by_cases hr : own.rank < r.rank
    · rw [enclose_of_rank_lt hr]
      exact .parentheses ts
    · rw [enclose_of_rank_le (Nat.not_lt.1 hr)]
      exact .refl ts

/-- Where a looser rule is needed, some pairs of parentheses may be taken away. -/
theorem unwraps_unparse_of_rank_le (h : r.rank ≤ r'.rank) (e : Expr) :
    Unwraps (e.unparse r') (e.unparse r) := by
  rw [unparse_eq_enclose r, unparse_eq_enclose r']
  exact unwraps_enclose h _ _

/-- Parentheses around a phrase may be taken away unless the rule that is needed asks for them. -/
theorem unwraps_parentheses_enclose (asked own : Rule) (ts : List Token) :
    Unwraps (.opening :: (ts ++ [.closing])) (asked.enclose own ts) := by
  by_cases hown : own.rank < asked.rank
  · rw [enclose_of_rank_lt hown]
    exact .refl _
  · rw [enclose_of_rank_le (Nat.not_lt.1 hown)]
    exact .parentheses ts

/-- All parentheses of a phrase but those that the grammar asks for can be taken away. -/
theorem Derives.unwraps_unparse (h : Derives r ts e) :
    Unwraps (ts.map Token.plain) (e.unparse r) := by
  induction h with
  | number text => exact .refl _
  | @group ts e _ ih =>
    rw [unparse_eq_enclose, List.map_cons, List.map_append]
    have hinner : Unwraps (.opening :: (ts.map Token.plain ++ [.closing]))
        (.opening :: (e.unparse .expression ++ [.closing])) :=
      .cons _ (.append ih (.refl _))
    exact hinner.trans (unwraps_parentheses_enclose _ _ _)
  | @call f ts e _ ih =>
    rw [List.map_cons, List.map_cons, List.map_append]
    have hinner :
        Unwraps (ts.map Token.plain ++ [.closing]) (e.unparse .expression ++ [.closing]) :=
      .append ih (.refl _)
    exact .cons _ (.cons _ hinner)
  | @operand r _ _ hr _ ih =>
    exact ih.trans (unwraps_unparse_of_rank_le r.rank_le_rank_operand _)
  | factorial text _ ih =>
    rw [List.map_append]
    exact .append ih (.refl _)
  | binary op hop _ _ ih ih' =>
    subst hop
    rw [List.map_append, List.map_cons, Expr.unparse, enclose_of_rank_le (Nat.le_refl _)]
    exact .append ih (.cons _ ih')

/-! ### Printing and parsing again -/

/-- The tokens of an expression that was read are read as this expression again. -/
theorem verdict_parse_unparse_of_valid (h : (parse ts).verdict = .valid e) :
    (parse (e.unparse .expression)).verdict = .valid e := by
  obtain ⟨hderives, hwithin⟩ := verdict_parse_eq_valid_iff.1 h
  refine verdict_parse_eq_valid_iff.2 ⟨derives_unparse _ e, ?_⟩
  exact hderives.unwraps_unparse.nestsWithin (nestsWithin_map_plain.2 hwithin)

/-- The tokens with as few parentheses as possible are read back as the expression, if they nest
within the limit; they do so for every expression that some tokens are read as, and they are these
tokens without some of the parentheses. -/
theorem parse_unparse :
    (∀ e : Expr, Token.NestsWithin nestingLimit (e.unparse .expression) →
      (parse (e.unparse .expression)).verdict = .valid e) ∧
    (∀ e : Expr, ¬ Token.NestsWithin nestingLimit (e.unparse .expression) →
      (parse (e.unparse .expression)).verdict = .invalid (.nestingTooDeep nestingLimit)) ∧
    ∀ (ts : List Token) (e : Expr), (parse ts).verdict = .valid e →
      (parse (e.unparse .expression)).verdict = .valid e ∧
        ErasesParentheses (ts.map Token.plain) (e.unparse .expression) := by
  refine ⟨fun e he => ?_, fun e he => ?_, fun ts e h => ?_⟩
  · exact verdict_parse_eq_valid_iff.2 ⟨derives_unparse _ e, he⟩
  · exact (derives_unparse _ e).verdict_parse_of_not_nestsWithin he
  · have hderives : Derives .expression ts e := (verdict_parse_eq_valid_iff.1 h).1
    exact ⟨verdict_parse_unparse_of_valid h, hderives.unwraps_unparse.erasesParentheses⟩

/-- The tokens of a call nest one level deeper than those of its argument. -/
theorem nestsWithin_unparse_call {f : Func} :
    Token.NestsWithin k ((Expr.call f e).unparse .expression) ↔
      Token.NestsWithin (k - 1) (e.unparse .expression) := by
  rw [Expr.unparse, enclose_of_rank_le (Nat.zero_le _), Token.nestsWithin_call]

/-- The expression that calls the sine `n` times. -/
def nestedSine : Nat → Expr
  | 0 => .literal "0"
  | n + 1 => .call .sin (nestedSine n)

/-- Sines nested `n` times do not nest within fewer levels. -/
theorem not_nestsWithin_nestedSine {n : Nat} (hk : k < n) :
    ¬ Token.NestsWithin k ((nestedSine n).unparse .expression) := by
  intro h
  induction n generalizing k with
  | zero =>
    have hnonneg : 0 ≤ k := h.nonneg
    omega
  | succ n ih => exact ih (by omega) (nestsWithin_unparse_call.1 h)

/-- `2-(3-4)` keeps its parentheses, 129 calls are printed but not read back, and `((1))*(2!)` loses
all of its parentheses. -/
theorem parse_unparse_examples :
    (parse [.number "2", .operator '-', .opening, .number "3", .operator '-', .number "4",
        .closing]).verdict =
      .valid (.binary .subtract (.literal "2")
        (.binary .subtract (.literal "3") (.literal "4"))) ∧
    (¬ Token.NestsWithin nestingLimit ((nestedSine 129).unparse .expression) ∧
      (parse ((nestedSine 129).unparse .expression)).verdict =
        .invalid (.nestingTooDeep nestingLimit)) ∧
    ((parse [.opening, .opening, .number "1", .closing, .closing, .operator '*', .opening,
        .number "2", ⟨.factorial, "?"⟩, .closing]).verdict =
      .valid (.binary .multiply (.literal "1") (.factorial (.literal "2"))) ∧
      (parse [.number "1", .operator '*', .number "2", .factorial]).verdict =
        .valid (.binary .multiply (.literal "1") (.factorial (.literal "2"))) ∧
      ErasesParentheses
        [.opening, .opening, .number "1", .closing, .closing, .operator '*', .opening,
          .number "2", .factorial, .closing]
        [.number "1", .operator '*', .number "2", .factorial]) := by
  refine ⟨?_, ?_, ?_⟩
  · exact parse_unparse.1
      (.binary .subtract (.literal "2") (.binary .subtract (.literal "3") (.literal "4")))
      ((Token.nestsWithin_length _).mono (by decide))
  · have hnests : ¬ Token.NestsWithin nestingLimit ((nestedSine 129).unparse .expression) :=
      not_nestsWithin_nestedSine (by decide)
    exact ⟨hnests, parse_unparse.2.1 _ hnests⟩
  · have hparse : (parse [.opening, .opening, .number "1", .closing, .closing, .operator '*',
        .opening, .number "2", ⟨.factorial, "?"⟩, .closing]).verdict =
          .valid (.binary .multiply (.literal "1") (.factorial (.literal "2"))) := by
      rfl
    exact ⟨hparse, parse_unparse.2.2 _ _ hparse⟩

end InfixArith
