import InfixArith.Token.Basic

/-!
# The terminals of the grammar

The main definition is `Token.terminal`, the terminal that a token stands for: numbers and
factorials go by their kind alone, operators and functions by their kind and their exact text, and
any other token stands for none.  The lemmas `Token.terminal_eq_number_iff` and the like say for
each terminal which tokens stand for it.
-/

namespace InfixArith

/-- What a token is to the grammar. -/
inductive Terminal where
  /-- A number with its digits. -/
  | number (text : String)
  /-- The parenthesis that opens a group or an argument. -/
  | opening
  /-- The parenthesis that closes a group or an argument. -/
  | closing
  /-- The name of a function. -/
  | function (f : Func)
  /-- The factorial sign. -/
  | factorial
  /-- A binary operator. -/
  | binary (op : BinaryOp)
  /-- Anything else, which the grammar has no place for. -/
  | other
deriving DecidableEq

namespace Terminal

/-- The terminal of an operator token with this symbol. -/
def ofSymbol (c : Char) : Terminal :=
  if c = '(' then .opening
  else if c = ')' then .closing
  else
    match BinaryOp.ofSymbol? c with
    | some op => .binary op
    | none => .other

/-- The terminal of an operator token with these characters. -/
def ofSymbols : List Char → Terminal
  | [c] => ofSymbol c
  | _ => .other

/-- The character of an operator stands for the operator. -/
@[simp]
theorem ofSymbol_symbol (op : BinaryOp) : ofSymbol op.symbol = .binary op := by
  cases op <;> decide

/-- Only `(` stands for the opening parenthesis. -/
theorem ofSymbol_eq_opening_iff {c : Char} : ofSymbol c = .opening ↔ c = '(' := by
  unfold ofSymbol
  split
  · simp_all
  · split
    · simp_all
    · split <;> simp_all

/-- Only `)` stands for the closing parenthesis. -/
theorem ofSymbol_eq_closing_iff {c : Char} : ofSymbol c = .closing ↔ c = ')' := by
  unfold ofSymbol
  split
  · simp_all
  · split
    · simp_all
    · split <;> simp_all

/-- Only the character of an operator stands for it. -/
theorem ofSymbol_eq_binary_iff {c : Char} {op : BinaryOp} :
    ofSymbol c = .binary op ↔ c = op.symbol := by
  constructor
  · intro h
    unfold ofSymbol at h
    split at h
    · cases h
    · split at h
      · cases h
      · split at h
        · next hop => cases h; exact BinaryOp.ofSymbol?_eq_some_iff.1 hop
        · cases h
  · rintro rfl
    exact ofSymbol_symbol op

/-- A character stands for a parenthesis, for an operator, or for nothing. -/
theorem ofSymbol_cases (c : Char) :
    ofSymbol c = .opening ∨ ofSymbol c = .closing ∨ (∃ op, ofSymbol c = .binary op) ∨
      ofSymbol c = .other := by
  unfold ofSymbol
  split
  · simp
  · split
    · simp
    · split <;> simp

/-- Characters that stand for something are one character that does. -/
theorem ofSymbols_eq_iff {cs : List Char} {a : Terminal} (ha : a ≠ .other) :
    ofSymbols cs = a ↔ ∃ c, cs = [c] ∧ ofSymbol c = a := by
  unfold ofSymbols
  split
  · simp
  · next hcs =>
    constructor
    · rintro rfl
      exact absurd rfl ha
    · rintro ⟨c, rfl, -⟩
      exact absurd rfl (hcs c)

end Terminal

namespace Token

/-- The terminal that the token stands for. -/
def terminal (t : Token) : Terminal :=
  match t.kind with
  | .number => .number t.text
  | .factorial => .factorial
  | .operator => Terminal.ofSymbols t.text.toList
  | .function =>
    match Func.ofName? t.text with
    | some f => .function f
    | none => .other

/-- A number token stands for its digits. -/
theorem terminal_number (digits : String) : (number digits).terminal = .number digits :=
  rfl

/-- An operator token stands for what its character does. -/
theorem terminal_operator (c : Char) : (operator c).terminal = Terminal.ofSymbol c := by
  simp [terminal, operator, Terminal.ofSymbols]

/-- A token with the name of a function stands for the function. -/
theorem terminal_function (f : Func) : (function f.name).terminal = .function f := by
  simp [terminal, function]

/-- A factorial token stands for the factorial sign, whatever its text. -/
theorem terminal_factorial (text : String) : terminal ⟨.factorial, text⟩ = .factorial :=
  rfl

/-- An operator token whose text is one character is the token of that character. -/
private theorem eq_operator_of_toList {text : String} {c : Char} (h : text.toList = [c]) :
    (⟨.operator, text⟩ : Token) = operator c := by
  have htext : text = String.singleton c := by
    apply String.toList_inj.1
    rw [h, String.toList_singleton]
  rw [htext, operator]

/-- A token that stands for something other than a number, a factorial sign or a function is an
operator token of one character. -/
private theorem exists_operator_of_terminal {t : Token} {a : Terminal} (ha : a ≠ .other)
    (hnumber : ∀ text, a ≠ .number text) (hfactorial : a ≠ .factorial)
    (hfunction : ∀ f, a ≠ .function f) (h : t.terminal = a) :
    ∃ c, t = operator c ∧ Terminal.ofSymbol c = a := by
  obtain ⟨kind, text⟩ := t
  cases kind with
  | number => exact absurd h.symm (hnumber text)
  | factorial => exact absurd h.symm hfactorial
  | function =>
    simp only [terminal] at h
    split at h
    · exact absurd h.symm (hfunction _)
    · exact absurd h.symm ha
  | operator =>
    obtain ⟨c, hc, hca⟩ := (Terminal.ofSymbols_eq_iff ha).1 h
    exact ⟨c, eq_operator_of_toList hc, hca⟩

/-- Only the number token with the text stands for the number. -/
theorem terminal_eq_number_iff {t : Token} {text : String} :
    t.terminal = .number text ↔ t = number text := by
  constructor
  · intro h
    obtain ⟨kind, text'⟩ := t
    cases kind with
    | number => cases h; rfl
    | factorial => cases h
    | function =>
      simp only [terminal] at h
      split at h <;> cases h
    | operator =>
      obtain ⟨c, -, hc⟩ := (Terminal.ofSymbols_eq_iff (by simp)).1 h
      rcases Terminal.ofSymbol_cases c with h' | h' | ⟨op, h'⟩ | h' <;> simp [h'] at hc
  · rintro rfl
    exact terminal_number text

/-- The factorial tokens, and no others, stand for the factorial sign. -/
theorem terminal_eq_factorial_iff {t : Token} : t.terminal = .factorial ↔ t.kind = .factorial := by
  constructor
  · intro h
    obtain ⟨kind, text'⟩ := t
    cases kind with
    | number => cases h
    | factorial => rfl
    | function =>
      simp only [terminal] at h
      split at h <;> cases h
    | operator =>
      obtain ⟨c, -, hc⟩ := (Terminal.ofSymbols_eq_iff (by simp)).1 h
      rcases Terminal.ofSymbol_cases c with h' | h' | ⟨op, h'⟩ | h' <;> simp [h'] at hc
  · intro h
    simp [terminal, h]

/-- Only the token with its name stands for a function. -/
theorem terminal_eq_function_iff {t : Token} {f : Func} :
    t.terminal = .function f ↔ t = function f.name := by
  constructor
  · intro h
    obtain ⟨kind, text'⟩ := t
    cases kind with
    | number => cases h
    | factorial => cases h
    | function =>
      simp only [terminal] at h
      split at h
      · next hf => cases h; rw [Func.ofName?_eq_some_iff.1 hf, function]
      · cases h
    | operator =>
      obtain ⟨c, -, hc⟩ := (Terminal.ofSymbols_eq_iff (by simp)).1 h
      rcases Terminal.ofSymbol_cases c with h' | h' | ⟨op, h'⟩ | h' <;> simp [h'] at hc
  · rintro rfl
    exact terminal_function f

/-- Only the token `(` stands for the opening parenthesis. -/
theorem terminal_eq_opening_iff {t : Token} : t.terminal = .opening ↔ t = opening := by
  constructor
  · intro h
    obtain ⟨c, rfl, hc⟩ :=
      exists_operator_of_terminal (by simp) (by simp) (by simp) (by simp) h
    rw [Terminal.ofSymbol_eq_opening_iff.1 hc, opening]
  · rintro rfl
    rw [opening, terminal_operator, Terminal.ofSymbol_eq_opening_iff]

/-- Only the token `)` stands for the closing parenthesis. -/
theorem terminal_eq_closing_iff {t : Token} : t.terminal = .closing ↔ t = closing := by
  constructor
  · intro h
    obtain ⟨c, rfl, hc⟩ :=
      exists_operator_of_terminal (by simp) (by simp) (by simp) (by simp) h
    rw [Terminal.ofSymbol_eq_closing_iff.1 hc, closing]
  · rintro rfl
    rw [closing, terminal_operator, Terminal.ofSymbol_eq_closing_iff]

/-- Only the token with its character stands for an operator. -/
theorem terminal_eq_binary_iff {t : Token} {op : BinaryOp} :
    t.terminal = .binary op ↔ t = operator op.symbol := by
  constructor
  · intro h
    obtain ⟨c, rfl, hc⟩ :=
      exists_operator_of_terminal (by simp) (by simp) (by simp) (by simp) h
    rw [Terminal.ofSymbol_eq_binary_iff.1 hc]
  · rintro rfl
    rw [terminal_operator, Terminal.ofSymbol_symbol]

/-- The token of a binary operator tells the operator. -/
theorem operator_symbol_injective {op op' : BinaryOp}
    (h : operator op.symbol = operator op'.symbol) : op = op' := by
  have hterminal : (operator op.symbol).terminal = .binary op' := terminal_eq_binary_iff.2 h
  rw [terminal_operator, Terminal.ofSymbol_symbol] at hterminal
  exact Terminal.binary.inj hterminal

/-- The token of a binary operator is no opening parenthesis. -/
theorem operator_symbol_ne_opening (op : BinaryOp) : operator op.symbol ≠ opening := by
  intro h
  have hterminal : (operator op.symbol).terminal = .opening := terminal_eq_opening_iff.2 h
  rw [terminal_operator, Terminal.ofSymbol_symbol] at hterminal
  cases hterminal

end Token

end InfixArith
