import InfixArith.Proofs.Scanning.Runs

/-!
# The tokens that a text can have

`Token.WellFormed` lists the tokens that texts are split into: numbers of one digit at least, the
functions, the parentheses, the binary operators and the factorial sign.  The text of such a token
is one run (`Token.WellFormed.isChain_text`) and is read as the token
(`Token.WellFormed.ofPiece_text`), and where the texts of two tokens meet, no run goes on unless
both are numbers or both are functions (`apart_text_iff`).
-/

namespace InfixArith

/-- The token can be read from a text. -/
inductive Token.WellFormed : Token → Prop
  /-- A number has digits and nothing else. -/
  | number {digits : String} (hne : digits ≠ "") (hdigits : ∀ c ∈ digits.toList, c.isDigit) :
      WellFormed (.number digits)
  /-- A function has its name. -/
  | function (f : Func) : WellFormed (.function f.name)
  /-- A parenthesis may open. -/
  | opening : WellFormed .opening
  /-- A parenthesis may close. -/
  | closing : WellFormed .closing
  /-- A binary operator has its symbol. -/
  | binary (op : BinaryOp) : WellFormed (.operator op.symbol)
  /-- A factorial has its sign. -/
  | factorial : WellFormed .factorial

/-- The tokens may stand side by side without a space: they are neither both numbers nor both
functions. -/
def Token.Separate (t u : Token) : Prop :=
  t.kind = u.kind → t.kind ≠ .number ∧ t.kind ≠ .function

instance (t u : Token) : Decidable (t.Separate u) :=
  inferInstanceAs (Decidable (t.kind = u.kind → t.kind ≠ .number ∧ t.kind ≠ .function))

/-- The token of each operator character can be read from a text. -/
theorem wellFormed_operator {c : Char} (h : c ∈ Token.operatorSymbols) :
    (Token.operator c).WellFormed := by
  simp only [Token.operatorSymbols, List.mem_cons, List.not_mem_nil, or_false] at h
  rcases h with rfl | rfl | rfl | rfl | rfl | rfl | rfl
  · exact .binary .add
  · exact .binary .subtract
  · exact .binary .multiply
  · exact .binary .divide
  · exact .binary .exponentiate
  · exact .opening
  · exact .closing

/-! ### The text of a token -/

namespace Token.WellFormed

variable {t : Token}

/-- A token that can be read has a text. -/
theorem toList_text_ne_nil (h : t.WellFormed) : t.text.toList ≠ [] := by
  cases h with
  | number hne hdigits => exact fun hnil => hne (String.toList_eq_nil_iff.1 hnil)
  | function f => cases f <;> decide
  | opening => decide
  | closing => decide
  | binary op => cases op <;> decide
  | factorial => decide

/-- The text of a token is one run. -/
theorem isChain_text (h : t.WellFormed) : t.text.toList.IsChain fun c d => sameRun c d := by
  cases h with
  | number hne hdigits => exact isChain_of_forall_isDigit hdigits
  | function f => cases f <;> decide
  | opening => decide
  | closing => decide
  | binary op => cases op <;> decide
  | factorial => decide

/-- The text of a token is read as the token. -/
theorem ofPiece_text (h : t.WellFormed) : Reading.ofPiece t.text.toList = .token t := by
  cases h with
  | @number digits hne hdigits =>
    obtain ⟨c, cs, hcs⟩ := List.exists_cons_of_ne_nil (number hne hdigits).toList_text_ne_nil
    rw [Token.number] at hcs
    have hdigit : c.isDigit = true := hdigits c (by rw [hcs]; exact List.mem_cons_self)
    rw [Token.number, hcs, Reading.ofPiece, isWhiteSpace_eq_false_of_isDigit hdigit, hdigit, ← hcs,
      String.ofList_toList]
    rfl
  | function f => cases f <;> rfl
  | opening => rfl
  | closing => rfl
  | binary op => cases op <;> rfl
  | factorial => rfl

/-- The text of a number has digits only, that of a function has letters only, and no other text
has any of them. -/
theorem class_of_mem_text (h : t.WellFormed) {c : Char} (hc : c ∈ t.text.toList) :
    c.isDigit = decide (t.kind = .number) ∧ c.isLower = decide (t.kind = .function) := by
  have hall : (t.text.toList.all fun c =>
      c.isDigit == decide (t.kind = .number) &&
        c.isLower == decide (t.kind = .function)) = true := by
    cases h with
    | number hne hdigits =>
      rw [List.all_eq_true]
      intro c hc
      rw [hdigits c hc, isLower_eq_false_of_isDigit (hdigits c hc)]
      rfl
    | function f => cases f <;> rfl
    | opening => rfl
    | closing => rfl
    | binary op => cases op <;> rfl
    | factorial => rfl
  have hclass := List.all_eq_true.1 hall c hc
  rw [Bool.and_eq_true, beq_iff_eq, beq_iff_eq] at hclass
  exact hclass

end Token.WellFormed

/-! ### Neighbours -/

section

variable {t u : Token}

/-- Tokens that may not stand side by side are both numbers or both functions. -/
theorem Token.not_separate_iff :
    ¬ t.Separate u ↔
      (t.kind = .number ∧ u.kind = .number) ∨ (t.kind = .function ∧ u.kind = .function) := by
  obtain ⟨kind, text⟩ := t
  obtain ⟨kind', text'⟩ := u
  cases kind <;> cases kind' <;> simp [Token.Separate]

/-- A run goes on from the text of a token to that of another one only if the two may not stand
side by side. -/
theorem sameRun_iff_not_separate (ht : t.WellFormed) (hu : u.WellFormed) {c d : Char}
    (hc : c ∈ t.text.toList) (hd : d ∈ u.text.toList) :
    sameRun c d = true ↔ ¬ t.Separate u := by
  obtain ⟨hcdigit, hclower⟩ := ht.class_of_mem_text hc
  obtain ⟨hddigit, hdlower⟩ := hu.class_of_mem_text hd
  rw [sameRun_iff, hcdigit, hclower, hddigit, hdlower, Token.not_separate_iff]
  simp only [decide_eq_true_eq]

/-- The texts of two tokens are not joined if these may stand side by side, and only then. -/
theorem apart_text_iff (ht : t.WellFormed) (hu : u.WellFormed) :
    Apart t.text.toList u.text.toList ↔ t.Separate u := by
  have hlast := List.getLast_mem ht.toList_text_ne_nil
  have hhead := List.head_mem hu.toList_text_ne_nil
  rw [apart_iff_getLast_head ht.toList_text_ne_nil hu.toList_text_ne_nil, ← Bool.not_eq_true,
    sameRun_iff_not_separate ht hu hlast hhead, Classical.not_not]

end

end InfixArith
