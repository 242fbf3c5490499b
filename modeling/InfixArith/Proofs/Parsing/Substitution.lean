import InfixArith.Proofs.Parsing.Characterization

/-!
# An expression in the place of a number

Where a number may stand, every expression in parentheses may stand.  `Phrase.substitute` puts a
primary in the place of one number of a phrase, which replaces one token in the tokens, one literal
in the expression (`Expr.replaceLiteral`) and one step in the steps, and leaves everything around it
as it is.  So the derivation of the longer list is made of the derivations of the two shorter ones
(`parse_substitute`); only the parentheses may become too many.
-/

namespace InfixArith

/-! ### Replacing one element of a list -/

section

variable {α : Type} {p : α → Bool} {new xs ys : List α} {x : α} {i : Nat}

/-- The list with the elements `new` in the place of the `i`-th element that satisfies `p`. -/
def replaceNth (p : α → Bool) (new : List α) : Nat → List α → List α
  | _, [] => []
  | i, x :: xs =>
    match p x, i with
    | false, i => x :: replaceNth p new i xs
    | true, 0 => new ++ xs
    | true, i + 1 => x :: replaceNth p new i xs

/-- There is nothing to replace in an empty list. -/
@[simp]
theorem replaceNth_nil : replaceNth p new i [] = [] :=
  rfl

/-- An element that is not counted is kept. -/
theorem replaceNth_cons_of_neg (hx : p x = false) :
    replaceNth p new i (x :: xs) = x :: replaceNth p new i xs := by
  simp [replaceNth, hx]

/-- The first element that is counted is replaced when the number is zero. -/
theorem replaceNth_zero_cons (hx : p x = true) : replaceNth p new 0 (x :: xs) = new ++ xs := by
  simp [replaceNth, hx]

/-- An element that is counted is kept when the number is greater, and lowers it by one. -/
theorem replaceNth_succ_cons (hx : p x = true) :
    replaceNth p new (i + 1) (x :: xs) = x :: replaceNth p new i xs := by
  simp [replaceNth, hx]

/-- An element of the first list is replaced there. -/
theorem replaceNth_append_of_lt (h : i < xs.countP p) :
    replaceNth p new i (xs ++ ys) = replaceNth p new i xs ++ ys := by
  induction xs generalizing i with
  | nil => exact absurd h (Nat.not_lt_zero i)
  | cons x xs ih =>
    rw [List.cons_append]
    cases hx : p x with
    | false =>
      rw [List.countP_cons_of_neg (by simp [hx])] at h
      rw [replaceNth_cons_of_neg hx, replaceNth_cons_of_neg hx, ih h, List.cons_append]
    | true =>
      rw [List.countP_cons_of_pos hx] at h
      cases i with
      | zero => rw [replaceNth_zero_cons hx, replaceNth_zero_cons hx, List.append_assoc]
      | succ i =>
        rw [replaceNth_succ_cons hx, replaceNth_succ_cons hx, ih (Nat.lt_of_succ_lt_succ h),
          List.cons_append]

/-- An element past the first list is replaced in the second one. -/
theorem replaceNth_append_of_le (h : xs.countP p ≤ i) :
    replaceNth p new i (xs ++ ys) = xs ++ replaceNth p new (i - xs.countP p) ys := by
  induction xs generalizing i with
  | nil => rfl
  | cons x xs ih =>
    rw [List.cons_append]
    cases hx : p x with
    | false =>
      rw [List.countP_cons_of_neg (by simp [hx])] at h ⊢
      rw [replaceNth_cons_of_neg hx, ih h, List.cons_append]
    | true =>
      rw [List.countP_cons_of_pos hx] at h ⊢
      obtain ⟨j, rfl⟩ : ∃ j, i = j + 1 := Nat.exists_eq_add_one_of_ne_zero (by omega)
      rw [replaceNth_succ_cons hx, ih (Nat.le_of_succ_le_succ h), Nat.add_sub_add_right,
        List.cons_append]

/-- A list with too few such elements stays as it is. -/
theorem replaceNth_of_countP_le (h : xs.countP p ≤ i) : replaceNth p new i xs = xs := by
  have happend : replaceNth p new i (xs ++ []) = xs ++ replaceNth p new (i - xs.countP p) [] :=
    replaceNth_append_of_le h
  rwa [replaceNth_nil, List.append_nil] at happend

/-- The element that follows as many others as are skipped is the one that is replaced. -/
theorem replaceNth_countP (hx : p x = true) :
    replaceNth p new (xs.countP p) (xs ++ x :: ys) = xs ++ (new ++ ys) := by
  rw [replaceNth_append_of_le (Nat.le_refl _), Nat.sub_self, replaceNth_zero_cons hx]

/-- Elements that do not satisfy `p` stay after those that may be replaced. -/
theorem replaceNth_append_right (h : ys.countP p = 0) :
    replaceNth p new i (xs ++ ys) = replaceNth p new i xs ++ ys := by
  rcases Nat.lt_or_ge i (xs.countP p) with hlt | hge
  · exact replaceNth_append_of_lt hlt
  · have hys : ys.countP p ≤ i - xs.countP p := by omega
    rw [replaceNth_append_of_le hge, replaceNth_of_countP_le hys, replaceNth_of_countP_le hge]

/-- Elements that do not satisfy `p` stay before those that may be replaced. -/
theorem replaceNth_append_left (h : xs.countP p = 0) :
    replaceNth p new i (xs ++ ys) = xs ++ replaceNth p new i ys := by
  rw [replaceNth_append_of_le (by omega), h, Nat.sub_zero]

end

/-! ### The numbers of a phrase -/

/-- Whether the token is a number. -/
def Token.isNumber (t : Token) : Bool :=
  decide (t.kind = .number)

/-- Whether the step has found a number. -/
def Step.isLiteral : Step → Bool
  | literal _ => true
  | _ => false

namespace Expr

/-- The texts of the literals, from left to right. -/
def literals : Expr → List String
  | literal text => [text]
  | binary _ left right => left.literals ++ right.literals
  | factorial arg => arg.literals
  | call _ arg => arg.literals

/-- The expression with another one in the place of its `i`-th literal, counted from the left. -/
def replaceLiteral : Expr → Nat → Expr → Expr
  | literal text, i, new => if i = 0 then new else literal text
  | binary op left right, i, new =>
    if i < left.literals.length then binary op (left.replaceLiteral i new) right
    else binary op left (right.replaceLiteral (i - left.literals.length) new)
  | factorial arg, i, new => factorial (arg.replaceLiteral i new)
  | call f arg, i, new => call f (arg.replaceLiteral i new)

end Expr

/-- An operator token is no number. -/
theorem isNumber_operator (c : Char) : (Token.operator c).isNumber = false :=
  rfl

/-- None of the tokens of an opener is a number. -/
theorem Opener.countP_tokens (o : Opener) : o.tokens.countP Token.isNumber = 0 := by
  cases o <;> rfl

/-- An opener adds no literals to the expression. -/
theorem Opener.literals_wrap (o : Opener) (e : Expr) : (o.wrap e).literals = e.literals := by
  cases o <;> rfl

/-- A literal is replaced inside of what the opener makes of the expression. -/
theorem Opener.replaceLiteral_wrap (o : Opener) (e : Expr) (i : Nat) (e' : Expr) :
    (o.wrap e).replaceLiteral i e' = o.wrap (e.replaceLiteral i e') := by
  cases o <;> rfl

/-- The steps of an opener are not those of numbers. -/
theorem Opener.isLiteral_steps (o : Opener) :
    o.enterStep.isLiteral = false ∧ o.leaveStep.isLiteral = false := by
  cases o <;> exact ⟨rfl, rfl⟩

namespace Phrase

variable {r : Rule}

/-- The literals of a phrase are its numbers. -/
theorem literals_expr (p : Phrase r) :
    p.expr.literals = (p.tokens.filter Token.isNumber).map Token.text := by
  induction p with
  | number text => rfl
  | enclosed o p ih =>
    have hopener : o.tokens.filter Token.isNumber = [] := by cases o <;> rfl
    rw [expr, o.literals_wrap, ih, tokens, List.filter_append, hopener, List.nil_append,
      List.filter_append]
    exact congrArg (List.map Token.text) (List.append_nil _).symm
  | operand hr p ih => exact ih
  | factorial text p ih =>
    rw [expr, Expr.literals, ih, tokens, List.filter_append]
    exact congrArg (List.map Token.text) (List.append_nil _).symm
  | binary op hop p p' ih ih' =>
    rw [expr, Expr.literals, ih, ih', tokens, List.filter_append,
      List.filter_cons_of_neg (by simp [isNumber_operator]), List.map_append]

/-- A phrase has as many number tokens as its expression has literals. -/
theorem countP_tokens (p : Phrase r) :
    p.tokens.countP Token.isNumber = p.expr.literals.length := by
  rw [literals_expr, List.length_map, List.countP_eq_length_filter]

/-- There is one step for each of the literals. -/
theorem countP_steps (p : Phrase r) : p.steps.countP Step.isLiteral = p.expr.literals.length := by
  induction p with
  | number text => rfl
  | enclosed o p ih =>
    obtain ⟨henter, hleave⟩ := o.isLiteral_steps
    rw [expr, o.literals_wrap, ← ih, steps, List.countP_cons_of_neg (by simp [henter]),
      List.countP_append, List.countP_singleton, hleave]
    rfl
  | operand hr p ih => exact ih
  | factorial text p ih =>
    rw [expr, Expr.literals, ← ih, steps, List.countP_append]
    rfl
  | binary op hop p p' ih ih' =>
    rw [expr, Expr.literals, List.length_append, ← ih, ← ih', steps, List.countP_append,
      List.countP_append]
    rfl

/-! ### A primary in the place of a number -/

/-- The phrase with a primary in the place of its `i`-th number, counted from the left. -/
def substitute {r : Rule} : Phrase r → Nat → Phrase .primary → Phrase r
  | number text, i, q => if i = 0 then q else number text
  | enclosed o p, i, q => enclosed o (p.substitute i q)
  | operand hr p, i, q => operand hr (p.substitute i q)
  | factorial text p, i, q => factorial text (p.substitute i q)
  | binary op hop p p', i, q =>
    if i < p.expr.literals.length then binary op hop (p.substitute i q) p'
    else binary op hop p (p'.substitute (i - p.expr.literals.length) q)

variable (q : Phrase .primary)

/-- Putting a primary in the place of a number replaces the literal of the number. -/
theorem expr_substitute (p : Phrase r) (i : Nat) :
    (p.substitute i q).expr = p.expr.replaceLiteral i q.expr := by
  induction p generalizing i with
  | number text =>
    rw [substitute, expr, Expr.replaceLiteral]
    split
    · rfl
    · rfl
  | enclosed o p ih => rw [substitute, expr, expr, ih, o.replaceLiteral_wrap]
  | operand hr p ih => exact ih i
  | factorial text p ih => rw [substitute, expr, expr, ih, Expr.replaceLiteral]
  | binary op hop p p' ih ih' =>
    rw [substitute, expr, Expr.replaceLiteral]
    split
    · rw [expr, ih]
    · rw [expr, ih']

/-- Putting a primary in the place of a number replaces the token of the number. -/
theorem tokens_substitute (p : Phrase r) (i : Nat) :
    (p.substitute i q).tokens = replaceNth Token.isNumber q.tokens i p.tokens := by
  induction p generalizing i with
  | number text =>
    have hnumber : (Token.number text).isNumber = true := rfl
    rw [substitute, tokens]
    cases i with
    | zero => rw [if_pos rfl, replaceNth_zero_cons hnumber, List.append_nil]
    | succ i =>
      rw [if_neg (Nat.succ_ne_zero i), replaceNth_succ_cons hnumber, replaceNth_nil, tokens]
  | enclosed o p ih =>
    rw [substitute, tokens, tokens, ih, replaceNth_append_left o.countP_tokens,
      replaceNth_append_right (by rfl)]
  | operand hr p ih => exact ih i
  | factorial text p ih =>
    rw [substitute, tokens, tokens, ih, replaceNth_append_right (by rfl)]
  | binary op hop p p' ih ih' =>
    have hoperator : (Token.operator op.symbol).isNumber = false := rfl
    rw [substitute, tokens]
    split
    · next hi =>
      rw [tokens, ih, replaceNth_append_of_lt (by rwa [countP_tokens])]
    · next hi =>
      rw [tokens, ih', replaceNth_append_of_le (by rw [countP_tokens]; exact Nat.le_of_not_lt hi),
        replaceNth_cons_of_neg hoperator, countP_tokens]

/-- Putting a primary in the place of a number replaces the step of the number. -/
theorem steps_substitute (p : Phrase r) (i : Nat) :
    (p.substitute i q).steps = replaceNth Step.isLiteral q.steps i p.steps := by
  induction p generalizing i with
  | number text =>
    have hliteral : (Step.literal text).isLiteral = true := rfl
    rw [substitute, steps]
    cases i with
    | zero => rw [if_pos rfl, replaceNth_zero_cons hliteral, List.append_nil]
    | succ i =>
      rw [if_neg (Nat.succ_ne_zero i), replaceNth_succ_cons hliteral, replaceNth_nil, steps]
  | enclosed o p ih =>
    obtain ⟨henter, hleave⟩ := o.isLiteral_steps
    rw [substitute, steps, steps, ih, replaceNth_cons_of_neg henter,
      replaceNth_append_right (by simp [hleave])]
  | operand hr p ih => exact ih i
  | factorial text p ih =>
    rw [substitute, steps, steps, ih, replaceNth_append_right (by rfl)]
  | binary op hop p p' ih ih' =>
    rw [substitute, steps]
    split
    · next hi =>
      rw [steps, ih, replaceNth_append_of_lt (by rwa [countP_steps])]
    · next hi =>
      rw [steps, ih', replaceNth_append_of_le (by rw [countP_steps]; exact Nat.le_of_not_lt hi),
        countP_steps, replaceNth_append_right (by rfl)]

end Phrase

/-! ### An expression in parentheses in the place of a number -/

section

variable {a b ts us es : List Token} {text : String} {e e₀ e₁ : Expr}

/-- The tokens of an expression in the place of a number nest within a limit when those of the
number do and there is room enough for the expression and its parentheses. -/
theorem nestsWithin_substitute_iff {k : Int} (hes : Token.depth es = 0)
    (h : Token.NestsWithin k (a ++ .number text :: b)) :
    Token.NestsWithin k (a ++ (.opening :: (es ++ [.closing]) ++ b)) ↔
      Token.depth a + 1 + Token.maxDepth es ≤ k := by
  obtain ⟨ha, hnumber⟩ := Token.nestsWithin_append.1 h
  obtain ⟨-, hb⟩ := Token.nestsWithin_cons.1 hnumber
  rw [Token.depth_number] at hb
  have hparentheses : Token.depth (.opening :: (es ++ [.closing])) = 0 := by
    rw [Token.depth_cons, Token.depth_append, hes, Token.depth_opening, Token.depth_closing]
    rfl
  rw [Token.nestsWithin_append, Token.nestsWithin_append, hparentheses,
    Token.nestsWithin_parentheses]
  constructor
  · rintro ⟨-, hwithin, -⟩
    have hmax : Token.maxDepth es ≤ k - Token.depth a - 1 :=
      Token.nestsWithin_iff_maxDepth_le.1 hwithin
    omega
  · intro hroom
    have hmax : Token.maxDepth es ≤ k - Token.depth a - 1 := by omega
    exact ⟨ha, Token.nestsWithin_iff_maxDepth_le.2 hmax, hb⟩

/-- A phrase with the tokens `a`, a number and `b`, with another one in parentheses in the place of
the number, has the tokens of this one there. -/
theorem tokens_substitute_group {p q : Phrase .expression}
    (hp : p.tokens = a ++ .number text :: b) :
    (p.substitute (a.countP Token.isNumber) (.enclosed .group q)).tokens =
      a ++ (.opening :: (q.tokens ++ [.closing]) ++ b) := by
  have hnumber : (Token.number text).isNumber = true := rfl
  rw [Phrase.tokens_substitute, hp, replaceNth_countP hnumber]
  rfl

/-- The number after the tokens `a` is the literal that follows as many others as `a` has
numbers. -/
theorem getElem?_literals {p : Phrase .expression} (hp : p.tokens = a ++ .number text :: b) :
    p.expr.literals[a.countP Token.isNumber]? = some text := by
  have hnumber : (Token.number text).isNumber = true := rfl
  rw [p.literals_expr, hp, List.filter_append, List.filter_cons_of_pos hnumber, List.map_append,
    List.map_cons, List.countP_eq_length_filter, ← List.length_map Token.text,
    List.getElem?_append_right (Nat.le_refl _), Nat.sub_self]
  rfl

/-- In a valid list of tokens, any valid list in parentheses may stand in the place of a number, if
that does not open too many parentheses.  The number is the literal that follows as many others as
there are numbers before it; the expression has the other one in its place, and the steps have in
the place of the one that found it the steps at the parentheses with those of the other list between
them.  If it opens too many parentheses, this is the error. -/
theorem parse_substitute (a b es : List Token) (text : String) (e₀ e₁ : Expr)
    (h₀ : (parse (a ++ .number text :: b)).verdict = .valid e₀)
    (h₁ : (parse es).verdict = .valid e₁) :
    e₀.literals[a.countP Token.isNumber]? = some text ∧
    (Token.depth a + 1 + Token.maxDepth es ≤ 128 →
      (parse (a ++ .opening :: es ++ .closing :: b)).verdict =
          .valid (e₀.replaceLiteral (a.countP Token.isNumber) e₁) ∧
        (parse (a ++ .opening :: es ++ .closing :: b)).steps =
          replaceNth Step.isLiteral (.opened :: (parse es).steps.dropLast ++ [.closed])
            (a.countP Token.isNumber) (parse (a ++ .number text :: b)).steps) ∧
    (128 < Token.depth a + 1 + Token.maxDepth es →
      (parse (a ++ .opening :: es ++ .closing :: b)).verdict = .invalid (.nestingTooDeep 128)) := by
  have hlist : a ++ .opening :: es ++ .closing :: b =
      a ++ (.opening :: (es ++ [.closing]) ++ b) := by simp
  rw [hlist]
  obtain ⟨p, hp, hpwithin, hpparse, rfl⟩ := exists_phrase_of_valid h₀
  obtain ⟨q, rfl, hqwithin, hqparse, rfl⟩ := exists_phrase_of_valid h₁
  have htokens := tokens_substitute_group (q := q) hp
  have hroom := nestsWithin_substitute_iff q.derives.depth_eq_zero (hp ▸ hpwithin)
  refine ⟨getElem?_literals hp, fun hdepth => ?_, fun hdepth => ?_⟩
  · have hparse := Phrase.parse_tokens _ (htokens.symm ▸ hroom.2 hdepth)
    have hcompletion : List.countP Step.isLiteral [.complete] = 0 := rfl
    rw [htokens, Phrase.expr_substitute, Phrase.steps_substitute] at hparse
    refine ⟨congrArg Derivation.verdict hparse, ?_⟩
    rw [hparse, hpparse, hqparse, Derivation.dropLast_steps, Derivation.steps, Derivation.steps]
    exact (replaceNth_append_right hcompletion).symm
  · have hderives := (p.substitute (a.countP Token.isNumber) (.enclosed .group q)).derives
    rw [htokens] at hderives
    refine hderives.verdict_parse_of_not_nestsWithin fun hwithin => ?_
    exact Int.not_le.2 hdepth (hroom.1 hwithin)

/-- The sum `4+5` stands in parentheses in the place of the second number of `2*3`, and 128
parentheses around a number leave no room for those around them. -/
theorem parse_substitute_sum :
    (parse [.number "2", .operator '*', .number "3"]).verdict =
        .valid (.binary .multiply (.literal "2") (.literal "3")) ∧
      (parse [.number "4", .operator '+', .number "5"]).verdict =
        .valid (.binary .add (.literal "4") (.literal "5")) ∧
      ((parse [.number "2", .operator '*', .opening, .number "4", .operator '+', .number "5",
          .closing]).verdict =
          .valid (.binary .multiply (.literal "2") (.binary .add (.literal "4") (.literal "5"))) ∧
        (parse [.number "2", .operator '*', .opening, .number "4", .operator '+', .number "5",
          .closing]).steps =
          [.literal "2", .opened, .literal "4", .literal "5", .joined .add, .closed,
            .joined .multiply, .complete]) ∧
      128 < Token.depth [.number "2", .operator '*'] + 1 + Token.maxDepth (nestedOne 128) ∧
      (parse ([.number "2", .operator '*'] ++ .opening :: nestedOne 128 ++ [.closing])).verdict =
        .invalid (.nestingTooDeep 128) := by
  have hproduct : (parse ([.number "2", .operator '*'] ++ [.number "3"])).verdict =
      .valid (.binary .multiply (.literal "2") (.literal "3")) := by rfl
  have hsum : (parse [.number "4", .operator '+', .number "5"]).verdict =
      .valid (.binary .add (.literal "4") (.literal "5")) := by rfl
  have hnested : (parse (nestedOne 128)).verdict = .valid (.literal "1") :=
    verdict_parse_eq_valid_iff.2 ⟨derives_nestedOne 128, nestsWithin_nestedOne 128⟩
  have hdepth : Token.depth [.number "2", .operator '*'] = 0 := by decide
  have hmax : ¬ Token.maxDepth (nestedOne 128) ≤ 127 := by
    rw [← Token.nestsWithin_iff_maxDepth_le]
    exact not_nestsWithin_nestedOne (by decide)
  have hfull : 128 < Token.depth [.number "2", .operator '*'] + 1 +
      Token.maxDepth (nestedOne 128) := by omega
  obtain ⟨-, hsubstitute, -⟩ := parse_substitute _ _ _ _ _ _ hproduct hsum
  obtain ⟨-, -, htooDeep⟩ := parse_substitute _ _ _ _ _ _ hproduct hnested
  exact ⟨hproduct, hsum, hsubstitute (by decide), hfull, htooDeep hfull⟩

end

end InfixArith
