import InfixArith.Proofs.Parsing.Substitution
import InfixArith.Proofs.Printing.Reprint
import InfixArith.Proofs.Tree.Assembly

/-!
# The tree of an expression determines it

A node of a tree has the label of its expression, and the label together with the number of children
tells which expression it is the root of; so different expressions have different trees
(`Expr.projection_injective`), whatever the texts of their numbers are.

The tree that stands in the place of an invalid expression is a leaf, and a number may have the same
text as that leaf.  In the analysis of a text it has not: the numbers of an expression are those of
its tokens (`Phrase.literals_expr`), and a text gives them digits only (`isDigit_of_mem_literals`).
So the tree of an analysis tells whether the text is valid, and which expression it is
(`tree_determines_expr`).
-/

namespace InfixArith

/-- Functions with the same name are the same. -/
theorem Func.name_injective {f f' : Func} (h : f.name = f'.name) : f = f' := by
  have hf : Func.ofName? f.name = some f := Func.ofName?_name f
  rw [h, Func.ofName?_name] at hf
  exact (Option.some.inj hf).symm

/-- No function is called by the factorial sign. -/
theorem Func.name_ne_factorialSymbol (f : Func) : f.name ≠ String.singleton factorialSymbol := by
  cases f <;> decide

/-! ### Expressions with the same tree -/

namespace Expr

/-- Expressions with the same tree of labels are the same. -/
theorem projection_injective {e e' : Expr} (h : e.projection = e'.projection) : e = e' := by
  induction e generalizing e' with
  | literal text =>
    cases e' with
    | literal text' => rw [(Tree.node.inj h).1]
    | _ => simp [projection, Tree.leaf] at h
  | binary op left right ihleft ihright =>
    cases e' with
    | binary op' left' right' =>
      obtain ⟨hname, hchildren⟩ := Tree.node.inj h
      have hop : op = op' := BinaryOp.symbol_injective (String.singleton_inj.1 hname)
      obtain ⟨hleft, hrest⟩ := List.cons.inj hchildren
      rw [hop, ihleft hleft, ihright (List.singleton_inj.1 hrest)]
    | _ => simp [projection, Tree.leaf] at h
  | factorial arg ih =>
    cases e' with
    | factorial arg' => rw [ih (List.singleton_inj.1 (Tree.node.inj h).2)]
    | call f arg' => exact absurd (Tree.node.inj h).1.symm f.name_ne_factorialSymbol
    | _ => simp [projection, Tree.leaf] at h
  | call f arg ih =>
    cases e' with
    | factorial arg' => exact absurd (Tree.node.inj h).1 f.name_ne_factorialSymbol
    | call f' arg' =>
      obtain ⟨hname, hchildren⟩ := Tree.node.inj h
      rw [Func.name_injective hname, ih (List.singleton_inj.1 hchildren)]
    | _ => simp [projection, Tree.leaf] at h

/-- Expressions whose visits give the same tree are the same. -/
theorem toTree_injective {e e' : Expr} (h : e.toTree = e'.toTree) : e = e' := by
  rw [toTree_eq_projection, toTree_eq_projection] at h
  exact projection_injective h

/-- Only a number that is written so has the tree that stands for an error. -/
theorem toTree_eq_error_iff {e : Expr} : e.toTree = .error ↔ e = .literal Tree.errorName := by
  have herror : (Expr.literal Tree.errorName).toTree = .error := toTree_eq_projection _
  constructor
  · intro h
    exact toTree_injective (h.trans herror.symm)
  · rintro rfl
    exact herror

end Expr

/-! ### The numbers of a text -/

section

variable {text text' : String} {a a' : Analysis} {e e' : Expr}

/-- The tokens of an analysis are those that a scan can give. -/
theorem wellFormed_of_analyze (h : analyze text = .ok a) : ∀ t ∈ a.tokens, t.WellFormed := by
  obtain ⟨ts, htokens, rfl⟩ := analyze_eq_ok_iff.1 h
  intro t ht
  have hscan : scan text = ⟨ts, none⟩ := tokenize_eq_ok_iff.1 htokens
  have hmem : t ∈ (scan text).tokens := by rwa [hscan]
  exact wellFormed_of_mem_scan hmem

/-- Each literal of a valid expression is the text of one of its tokens that are numbers. -/
theorem number_mem_of_mem_literals {ts : List Token} (h : (parse ts).verdict = .valid e)
    {literal : String} (hliteral : literal ∈ e.literals) : .number literal ∈ ts := by
  obtain ⟨p, rfl, -, -, rfl⟩ := exists_phrase_of_valid h
  rw [p.literals_expr] at hliteral
  obtain ⟨⟨kind, text⟩, hmem, rfl⟩ := List.mem_map.1 hliteral
  obtain ⟨htoken, hnumber⟩ := List.mem_filter.1 hmem
  obtain rfl : kind = .number := of_decide_eq_true hnumber
  exact htoken

/-- The literals of an expression that is read from a text have digits only. -/
theorem isDigit_of_mem_literals (h : analyze text = .ok a)
    (he : a.derivation.verdict = .valid e) {literal : String} (hliteral : literal ∈ e.literals) :
    ∀ c ∈ literal.toList, c.isDigit = true := by
  have hwell : ∀ t ∈ a.tokens, t.WellFormed := wellFormed_of_analyze h
  obtain ⟨ts, -, rfl⟩ := analyze_eq_ok_iff.1 h
  have hnumber : (Token.number literal).WellFormed :=
    hwell _ (number_mem_of_mem_literals he hliteral)
  intro c hc
  rw [(hnumber.class_of_mem_text hc).1]
  rfl

/-! ### The tree of an analysis -/

/-- The tree of a derivation is that of its expression. -/
theorem Derivation.tree_of_valid {d : Derivation} (h : d.verdict = .valid e) :
    d.tree = e.toTree := by
  rw [tree, h]

/-- A derivation without an expression has the error tree. -/
theorem Derivation.tree_of_invalid {d : Derivation} {error : ParseError}
    (h : d.verdict = .invalid error) : d.tree = .error := by
  rw [tree, h]

/-- No text is an expression with the tree that stands for an error. -/
theorem toTree_ne_error (h : analyze text = .ok a) (he : a.derivation.verdict = .valid e) :
    e.toTree ≠ .error := by
  intro htree
  obtain rfl := Expr.toTree_eq_error_iff.1 htree
  have hdigits : ∀ c ∈ Tree.errorName.toList, c.isDigit = true :=
    isDigit_of_mem_literals h he (List.mem_singleton.2 rfl)
  exact absurd (hdigits 'E' (by decide)) (by decide)

/-- Only texts that are no expressions have the error tree. -/
theorem tree_eq_error_iff (h : analyze text = .ok a) :
    a.derivation.tree = .error ↔ a.derivation.isValid = false := by
  rw [Derivation.isValid]
  cases hverdict : a.derivation.verdict with
  | valid e =>
    rw [Derivation.tree_of_valid hverdict]
    exact iff_of_false (toTree_ne_error h hverdict) (by simp [Verdict.isValid])
  | invalid error => exact iff_of_true (Derivation.tree_of_invalid hverdict) rfl

/-- Two texts have the same tree when they have the same expression or neither has one. -/
theorem tree_eq_tree_iff (h : analyze text = .ok a) (h' : analyze text' = .ok a') :
    a.derivation.tree = a'.derivation.tree ↔ a.derivation.expr? = a'.derivation.expr? := by
  rw [Derivation.expr?, Derivation.expr?]
  cases hverdict : a.derivation.verdict with
  | valid e =>
    rw [Derivation.tree_of_valid hverdict]
    cases hverdict' : a'.derivation.verdict with
    | valid e' =>
      rw [Derivation.tree_of_valid hverdict']
      exact ⟨fun htree => congrArg some (Expr.toTree_injective htree),
        fun hexpr => congrArg Expr.toTree (Option.some.inj hexpr)⟩
    | invalid error' =>
      rw [Derivation.tree_of_invalid hverdict']
      exact iff_of_false (toTree_ne_error h hverdict) (by simp [Verdict.expr?])
  | invalid error =>
    rw [Derivation.tree_of_invalid hverdict]
    cases hverdict' : a'.derivation.verdict with
    | valid e' =>
      rw [Derivation.tree_of_valid hverdict']
      exact iff_of_false (toTree_ne_error h' hverdict').symm (by simp [Verdict.expr?])
    | invalid error' => exact iff_of_true (Derivation.tree_of_invalid hverdict').symm rfl

end

/-- Different expressions have different trees.  The trees of two texts are equal if both texts are
the same expression or both are none, and only then; that of an invalid text is the error leaf, and
that of a valid text is not. -/
theorem tree_determines_expr :
    (∀ e e' : Expr, e.toTree = e'.toTree → e = e') ∧
    (∀ (text text' : String) (a a' : Analysis), analyze text = .ok a → analyze text' = .ok a' →
      (a.derivation.tree = a'.derivation.tree ↔ a.derivation.expr? = a'.derivation.expr?)) ∧
    ∀ (text : String) (a : Analysis), analyze text = .ok a →
      (a.derivation.tree = .error ↔ a.derivation.isValid = false) := by
  refine ⟨?_, ?_, ?_⟩
  · intro e e' htree
    exact Expr.toTree_injective htree
  · intro text text' a a' h h'
    exact tree_eq_tree_iff h h'
  · intro text a h
    exact tree_eq_error_iff h

/-- The tokens of `1+2`. -/
def sumTokens : List Token :=
  [.number "1", .operator '+', .number "2"]

/-- The tokens of `(1)+2`. -/
def groupedSumTokens : List Token :=
  [.opening, .number "1", .closing, .operator '+', .number "2"]

/-- Parentheses do not show in the tree of a sum, and a sum without its second term has the error
leaf. -/
theorem tree_determines_expr_sum :
    (analyze "1 + 2" = .ok ⟨sumTokens, parse sumTokens⟩ ∧
      analyze "(1)+2" = .ok ⟨groupedSumTokens, parse groupedSumTokens⟩ ∧
      (parse sumTokens).expr? = (parse groupedSumTokens).expr? ∧
      (parse sumTokens).tree = (parse groupedSumTokens).tree) ∧
    (∃ e e' : Expr, (parse sumTokens).verdict = .valid e ∧
      (parse groupedSumTokens).verdict = .valid e' ∧ e.toTree = e'.toTree ∧ e = e') ∧
    analyze "1 +" = .ok ⟨sumTokens.take 2, parse (sumTokens.take 2)⟩ ∧
      (parse (sumTokens.take 2)).isValid = false ∧ (parse (sumTokens.take 2)).tree = .error := by
  have htext : analyze "1 + 2" = .ok ⟨sumTokens, parse sumTokens⟩ := by rfl
  have htext' : analyze "(1)+2" = .ok ⟨groupedSumTokens, parse groupedSumTokens⟩ := by rfl
  have hexpr : (parse sumTokens).expr? = (parse groupedSumTokens).expr? := by rfl
  have hstart : analyze "1 +" = .ok ⟨sumTokens.take 2, parse (sumTokens.take 2)⟩ := by rfl
  have hinvalid : (parse (sumTokens.take 2)).isValid = false := by rfl
  have htrees := (tree_determines_expr.2.1 _ _ _ _ htext htext').2 hexpr
  exact ⟨⟨htext, htext', hexpr, htrees⟩,
    ⟨_, _, rfl, rfl, htrees, tree_determines_expr.1 _ _ htrees⟩,
    hstart, hinvalid, (tree_determines_expr.2.2 _ _ hstart).2 hinvalid⟩

/-- A number that is written like the error leaf is an expression, but no text has such a number. -/
example :
    (parse [.number Tree.errorName]).isValid = true ∧
      (parse [.number Tree.errorName]).tree = .error ∧
      tokenize Tree.errorName = .error (.unexpectedCharacter 'E') := by
  decide +kernel

end InfixArith
