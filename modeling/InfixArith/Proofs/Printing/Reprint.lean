import InfixArith.Analysis
import InfixArith.Proofs.Parsing.Characterization
import InfixArith.Proofs.Scanning.Spelling

/-!
# Printed tokens are scanned again

Tokens are printed with no space between most of them, so two numbers side by side would be read as
one, and so would two functions.  No list of tokens that continues a state has such neighbours
(`Shifts.isChain_separate`), and the text that a list without them is printed as has these tokens
(`exists_spell_printAll`), so they are recovered from it (`scan_printAll`).  So the analysis of a
valid text is that of its printed tokens.
-/

namespace InfixArith

/-! ### Neighbours in an expression -/

section Neighbours

variable {asked : Rule} {s s' s'' : State} {t u : Token} {ts : List Token}
  {steps steps' : List Step}

/-- Of two tokens that continue a state one after the other, not both are numbers and not both are
functions. -/
theorem Shift.separate (h : Shift asked s t steps s') (h' : Shift asked s' u steps' s'') :
    t.Separate u := by
  intro hkind
  constructor
  · intro ht
    obtain ⟨-, e, powers, hafter⟩ := h.positions_of_number ht
    obtain ⟨⟨power, hbefore⟩, -⟩ := h'.positions_of_number (hkind ▸ ht)
    rw [hafter] at hbefore
    cases hbefore
  · intro ht
    obtain ⟨-, f, power, hafter⟩ := h.positions_of_function ht
    obtain ⟨⟨power', hbefore⟩, -⟩ := h'.positions_of_function (hkind ▸ ht)
    rw [hafter] at hbefore
    cases hbefore

/-- In tokens that continue a state, no two numbers and no two functions are neighbours. -/
theorem Shifts.isChain_separate (h : Shifts asked s ts steps s') : ts.IsChain Token.Separate := by
  induction h with
  | nil s => exact .nil
  | @cons s s' s'' t ts steps steps' hshift hrest ih =>
    rw [List.isChain_cons]
    refine ⟨?_, ih⟩
    intro u hu
    cases hrest with
    | nil => cases hu
    | cons hshift' _ =>
      obtain rfl := Option.some.inj hu
      exact hshift.separate hshift'

/-- No two numbers and no two functions are neighbours in an expression. -/
theorem isChain_separate_of_valid {e : Expr} (h : (parse ts).verdict = .valid e) :
    ts.IsChain Token.Separate := by
  obtain ⟨steps, s, htakes, -⟩ := verdict_parse_eq_valid_iff_takes.1 h
  exact htakes.shifts.isChain_separate

end Neighbours

/-! ### The printed text of tokens -/

/-- Tokens are printed as the first one and then the others. -/
theorem printAll_cons (t : Token) (ts : List Token) :
    Token.printAll (t :: ts) = t.print ++ Token.printAll ts := by
  simp [Token.printAll, String.join_cons]

/-- Two lists of tokens are printed one after the other. -/
theorem printAll_append (ts us : List Token) :
    Token.printAll (ts ++ us) = Token.printAll ts ++ Token.printAll us := by
  rw [Token.printAll, List.map_append, String.join_append]
  rfl

/-- Tokens that may stand side by side are written with white space only around them. -/
theorem exists_spell_printAll {ts : List Token} (h : ts.IsChain Token.Separate) :
    ∃ first ps, ps.map Prod.fst = ts ∧ IsSpacing first ps ∧
      Token.printAll ts = spell first ps := by
  induction ts with
  | nil => exact ⟨"", [], rfl, isSpacing_nil.2 isBlank_empty, rfl⟩
  | cons t ts ih =>
    obtain ⟨hhead, htail⟩ := List.isChain_cons.1 h
    obtain ⟨gap, ps, rfl, hspacing, hprint⟩ := ih htail
    have hnext : ∀ p ∈ ps.head?, t.Separate p.1 := by
      intro p hp
      exact hhead p.1 (by rw [List.head?_map, hp]; rfl)
    rw [printAll_cons, hprint, Token.print]
    split
    · -- The space after the token comes before those of the next one.
      have hspace : IsBlank " " := isBlank_singleton (c := ' ') rfl
      refine ⟨" ", (t, " " ++ gap) :: ps, rfl, ?_, ?_⟩
      · exact isSpacing_cons.2 ⟨hspace, fun p hp _ => hnext p hp, hspacing.append hspace⟩
      · simp only [spell, spell_append, String.append_assoc]
    · refine ⟨"", (t, gap) :: ps, rfl, ?_, ?_⟩
      · exact isSpacing_cons.2 ⟨isBlank_empty, fun p hp _ => hnext p hp, hspacing⟩
      · rw [spell, String.empty_append]

/-- Tokens that may stand side by side are recovered from their printed text. -/
theorem scan_printAll {ts : List Token} (hts : ∀ t ∈ ts, t.WellFormed)
    (hsep : ts.IsChain Token.Separate) : scan (Token.printAll ts) = ⟨ts, none⟩ := by
  obtain ⟨first, ps, rfl, hspacing, hprint⟩ := exists_spell_printAll hsep
  rw [hprint]
  exact scan_spell (List.forall_mem_map.1 hts) hspacing

/-! ### Analyzing a printed expression -/

/-- The analysis of a text is what its tokens derive, when it has tokens. -/
theorem analyze_eq_ok_iff {text : String} {a : Analysis} :
    analyze text = .ok a ↔ ∃ ts, tokenize text = .ok ts ∧ a = ⟨ts, parse ts⟩ := by
  rw [analyze]
  cases tokenize text with
  | error e => simp [Except.map]
  | ok ts => simp [Except.map, eq_comm]

/-- A valid text and the text that its tokens are printed as have the same analysis, and the second
text is printed as itself. -/
theorem analyze_printAll_of_valid (text : String) (a : Analysis) (h : analyze text = .ok a)
    (hvalid : a.derivation.isValid = true) :
    ∃ b, analyze (Token.printAll a.tokens) = .ok b ∧ b = a ∧
      Token.printAll b.tokens = Token.printAll a.tokens := by
  obtain ⟨ts, htokens, rfl⟩ := analyze_eq_ok_iff.1 h
  obtain ⟨e, he⟩ := Verdict.isValid_iff.1 hvalid
  have hscan : scan text = ⟨ts, none⟩ := tokenize_eq_ok_iff.1 htokens
  have hwell : ∀ t ∈ ts, t.WellFormed := by
    intro t ht
    have hmem : t ∈ (scan text).tokens := by rwa [hscan]
    exact wellFormed_of_mem_scan hmem
  have hprinted : tokenize (Token.printAll ts) = .ok ts :=
    tokenize_eq_ok_iff.2 (scan_printAll hwell (isChain_separate_of_valid he))
  exact ⟨⟨ts, parse ts⟩, analyze_eq_ok_iff.2 ⟨ts, hprinted, rfl⟩, rfl, rfl⟩

/-- The tokens of a product with a difference in parentheses. -/
def spacedTokens : List Token :=
  [.number "12", .operator '*', .opening, .number "3", .operator '-', .number "4", .closing]

/-- The spaces of the text are replaced by those of the printer. -/
theorem analyze_printAll_of_valid_spaces :
    analyze "  12 *  ( 3-4 )" = .ok ⟨spacedTokens, parse spacedTokens⟩ ∧
      (parse spacedTokens).isValid = true ∧
      Token.printAll spacedTokens = "12 * (3 - 4)" ∧
      ∃ b, analyze "12 * (3 - 4)" = .ok b ∧ b = ⟨spacedTokens, parse spacedTokens⟩ ∧
        Token.printAll b.tokens = "12 * (3 - 4)" := by
  have htext : analyze "  12 *  ( 3-4 )" = .ok ⟨spacedTokens, parse spacedTokens⟩ := by rfl
  have hvalid : (parse spacedTokens).isValid = true := by rfl
  have hprint : Token.printAll spacedTokens = "12 * (3 - 4)" := by decide
  have hagain := analyze_printAll_of_valid _ _ htext hvalid
  rw [hprint] at hagain
  exact ⟨htext, hvalid, hprint, hagain⟩

end InfixArith
