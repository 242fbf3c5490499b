import InfixArith.Derivation.State
import InfixArith.Proofs.Grammar.Nesting

/-!
# What one token does

`Shift asked s t steps s'` says that the token `t` continues what the state `s` knows, with no
regard to how many parentheses are open.  Together with the limit it says all that `State.next`
does: a token that continues is taken (`next_of_shift`), unless it is one opening parenthesis too
many (`next_of_tooDeep`), and a token that does not continue ends the reading (`next_of_stuck`).
-/

namespace InfixArith

/-- The token continues the state: it writes down the steps and leads to the second state. -/
inductive Shift (asked : Rule) : State → Token → List Step → State → Prop
  /-- A number is an operand. -/
  | number {fs : List Frame} {sum : Pending .expression} {product : Pending .term}
      {power : Pending .power} (text : String) :
      Shift asked ⟨fs, sum, product, .operand power⟩ (.number text) (.literal text :: power.steps)
        ⟨fs, sum, product, afterPrimary power (.literal text)⟩
  /-- A parenthesis opens a group. -/
  | group {fs : List Frame} {sum : Pending .expression} {product : Pending .term}
      {power : Pending .power} :
      Shift asked ⟨fs, sum, product, .operand power⟩ .opening [Opener.group.enterStep]
        ⟨⟨.group, sum, product, power⟩ :: fs, none, none, .operand none⟩
  /-- The name of a function waits for its parenthesis. -/
  | name {fs : List Frame} {sum : Pending .expression} {product : Pending .term}
      {power : Pending .power} (f : Func) :
      Shift asked ⟨fs, sum, product, .operand power⟩ (.function f.name) []
        ⟨fs, sum, product, .callee f power⟩
  /-- A parenthesis opens the argument of a function. -/
  | call {fs : List Frame} {sum : Pending .expression} {product : Pending .term}
      {power : Pending .power} {f : Func} :
      Shift asked ⟨fs, sum, product, .callee f power⟩ .opening [(Opener.call f).enterStep]
        ⟨⟨.call f, sum, product, power⟩ :: fs, none, none, .operand none⟩
  /-- A factorial sign applies to the operand before it. -/
  | factorial {fs : List Frame} {sum : Pending .expression} {product : Pending .term} {e : Expr}
      {powers : Bool} (text : String)
      (hasked : ((State.mk fs sum product (.operator e powers)).ruleWithin asked).admits .factor) :
      Shift asked ⟨fs, sum, product, .operator e powers⟩ ⟨.factorial, text⟩ [.factorial]
        ⟨fs, sum, product, .operator (.factorial e) false⟩
  /-- `+` or `-` waits for the next term with all that is complete at its level. -/
  | sum {fs : List Frame} {sum : Pending .expression} {product : Pending .term} {e : Expr}
      {powers : Bool} (op : BinaryOp) (hop : op.rule = .expression)
      (hasked :
        ((State.mk fs sum product (.operator e powers)).ruleWithin asked).admits .expression) :
      Shift asked ⟨fs, sum, product, .operator e powers⟩ (.operator op.symbol)
        (product.steps ++ sum.steps)
        ⟨fs, some ⟨sum.join (product.join e), op, hop⟩, none, .operand none⟩
  /-- `*` or `/` waits for the next factor with the product before it. -/
  | product {fs : List Frame} {sum : Pending .expression} {product : Pending .term} {e : Expr}
      {powers : Bool} (op : BinaryOp) (hop : op.rule = .term)
      (hasked : ((State.mk fs sum product (.operator e powers)).ruleWithin asked).admits .term) :
      Shift asked ⟨fs, sum, product, .operator e powers⟩ (.operator op.symbol) product.steps
        ⟨fs, sum, some ⟨product.join e, op, hop⟩, .operand none⟩
  /-- `^` waits for the next primary with an operand that does not end in a factorial. -/
  | power {fs : List Frame} {sum : Pending .expression} {product : Pending .term} {e : Expr}
      (op : BinaryOp) (hop : op.rule = .power)
      (hasked : ((State.mk fs sum product (.operator e true)).ruleWithin asked).admits .power) :
      Shift asked ⟨fs, sum, product, .operator e true⟩ (.operator op.symbol) []
        ⟨fs, sum, product, .operand (some ⟨e, op, hop⟩)⟩
  /-- A parenthesis closes the innermost level, which becomes an operand of the level around it. -/
  | close {f : Frame} {fs : List Frame} {sum : Pending .expression} {product : Pending .term}
      {e : Expr} {powers : Bool} :
      Shift asked ⟨f :: fs, sum, product, .operator e powers⟩ .closing
        (product.steps ++ sum.steps ++ f.opener.leaveStep :: f.power.steps)
        ⟨fs, f.sum, f.product,
          afterPrimary f.power (f.opener.wrap (sum.join (product.join e)))⟩

/-- When an expression is asked for, the tokens of every level are those of one. -/
@[simp]
theorem ruleWithin_expression (s : State) : s.ruleWithin .expression = .expression := by
  simp [State.ruleWithin]

/-- What the opening parenthesis stands after. -/
def Opener.position (power : Pending .power) : Opener → Position
  | group => .operand power
  | call f => .callee f power

/-- No move continues the state with the token. -/
def Stuck (asked : Rule) (s : State) (t : Token) : Prop :=
  ∀ steps s', ¬ Shift asked s t steps s'

/-- A state that is not stuck goes on with the token. -/
theorem not_stuck_iff {asked : Rule} {s : State} {t : Token} :
    ¬ Stuck asked s t ↔ ∃ steps s', Shift asked s t steps s' := by
  simp [Stuck, Classical.not_forall]

/-- The steps and the verdict when a token does not continue the state. -/
def State.refuse (s : State) (t : Token) : List Step × Verdict :=
  match s.position with
  | .operand _ => ([], .invalid (.unexpectedToken t))
  | .callee _ _ => ([], .invalid .functionWithoutParenthesis)
  | .operator e _ => s.stop e

/-- A token that is not taken leaves the steps that the end of the tokens would leave. -/
theorem refuse_fst (s : State) (t : Token) : (s.refuse t).1 = s.finish.1 := by
  obtain ⟨fs, sum, product, position⟩ := s
  cases position <;> rfl

variable {asked : Rule} {outer : Nat} {s s' : State} {t : Token} {steps : List Step}

/-! ### The three kinds of moves -/

/-- A token that continues the state is taken, if it does not open too many parentheses. -/
theorem next_of_shift (h : Shift asked s t steps s')
    (hroom : t = .opening → outer + s.frames.length < nestingLimit) :
    s.next asked outer t = .shift steps s' := by
  cases h with
  | number text => simp [State.next, Token.terminal_number]
  | group =>
    simp [State.next, Token.terminal_eq_opening_iff.2, State.openParenthesis, hroom rfl]
  | name f => simp [State.next, Token.terminal_function]
  | call => simp [State.next, Token.terminal_eq_opening_iff.2, State.openParenthesis, hroom rfl]
  | factorial text hasked =>
    simp [State.next, Token.terminal_factorial, State.factorialSign, hasked]
  | sum op hop hasked =>
    rw [State.next, Token.terminal_eq_binary_iff.2 rfl]
    exact State.binaryOperator_of_expression hop hasked
  | product op hop hasked =>
    rw [State.next, Token.terminal_eq_binary_iff.2 rfl]
    exact State.binaryOperator_of_term hop hasked
  | power op hop hasked =>
    rw [State.next, Token.terminal_eq_binary_iff.2 rfl]
    exact (State.binaryOperator_of_power hop hasked).trans (if_pos rfl)
  | close =>
    simp [State.next, Token.terminal_eq_closing_iff.2, State.closeParenthesis, State.totalSteps,
      State.total]

/-- What an opening parenthesis does: the levels around it wait, and nothing is known yet of the
level that it opens. -/
theorem Shift.of_opening (h : Shift asked s .opening steps s') :
    ∃ (o : Opener) (power : Pending .power), s.position = o.position power ∧
      steps = [o.enterStep] ∧
      s' = ⟨⟨o, s.sum, s.product, power⟩ :: s.frames, none, none, .operand none⟩ := by
  generalize ht : Token.opening = t at h
  have hterminal : t.terminal = .opening := Token.terminal_eq_opening_iff.2 ht.symm
  cases h with
  | group => exact ⟨.group, _, rfl, rfl, rfl⟩
  | @call _ _ _ _ f => exact ⟨.call f, _, rfl, rfl, rfl⟩
  | number text => simp [Token.terminal_number] at hterminal
  | name f => simp [Token.terminal_function] at hterminal
  | factorial text => simp [Token.terminal_factorial] at hterminal
  | sum op => simp [Token.terminal_operator] at hterminal
  | product op => simp [Token.terminal_operator] at hterminal
  | power op => simp [Token.terminal_operator] at hterminal
  | close => simp [Token.terminal_eq_closing_iff.2] at hterminal

/-- The opening parenthesis past the limit writes down its step and ends the reading. -/
theorem next_of_tooDeep (h : Shift asked s .opening steps s')
    (hfull : nestingLimit ≤ outer + s.frames.length) :
    s.next asked outer .opening = .halt steps (.invalid (.nestingTooDeep nestingLimit)) := by
  have hroom : ¬ outer + s.frames.length < nestingLimit := Nat.not_lt.2 hfull
  have hterminal : Token.opening.terminal = .opening := Token.terminal_eq_opening_iff.2 rfl
  obtain ⟨o, power, hposition, rfl, -⟩ := h.of_opening
  cases o <;>
    simp [State.next, hposition, Opener.position, hterminal, State.openParenthesis, hroom]

/-- A binary operator that is not taken ends the reading. -/
private theorem binaryOperator_of_stuck {fs : List Frame} {sum : Pending .expression}
    {product : Pending .term} {e : Expr} {powers : Bool} {op : BinaryOp}
    (h : Stuck asked ⟨fs, sum, product, .operator e powers⟩ (.operator op.symbol)) :
    (State.mk fs sum product (.operator e powers)).binaryOperator asked e powers op =
      (State.mk fs sum product (.operator e powers)).halt e := by
  cases hasked :
    ((State.mk fs sum product (.operator e powers)).ruleWithin asked).admits op.rule with
  | false => exact State.binaryOperator_of_not_admits hasked
  | true =>
    cases hop : op.rule with
    | expression =>
      rw [hop] at hasked
      exact absurd (.sum op hop hasked) (h _ _)
    | term =>
      rw [hop] at hasked
      exact absurd (.product op hop hasked) (h _ _)
    | power =>
      rw [hop] at hasked
      cases powers with
      | false => exact (State.binaryOperator_of_power hop hasked).trans (if_neg (by simp))
      | true => exact absurd (.power op hop hasked) (h _ _)
    | factor => cases op <;> cases hop
    | primary => cases op <;> cases hop

/-- A token that does not continue the state ends the reading. -/
theorem next_of_stuck (h : Stuck asked s t) :
    s.next asked outer t = .halt (s.refuse t).1 (s.refuse t).2 := by
  obtain ⟨fs, sum, product, position⟩ := s
  cases position with
  | operand power =>
    simp only [State.next, State.refuse]
    split
    · next text ht =>
      obtain rfl := Token.terminal_eq_number_iff.1 ht
      exact absurd (.number text) (h _ _)
    · next ht =>
      obtain rfl := Token.terminal_eq_opening_iff.1 ht
      exact absurd .group (h _ _)
    · next f ht =>
      obtain rfl := Token.terminal_eq_function_iff.1 ht
      exact absurd (.name f) (h _ _)
    · rfl
  | callee f power =>
    simp only [State.next, State.refuse]
    split
    · next ht =>
      obtain rfl := Token.terminal_eq_opening_iff.1 ht
      exact absurd .call (h _ _)
    · rfl
  | operator e powers =>
    simp only [State.next, State.refuse]
    split
    · next ht =>
      obtain ⟨kind, text⟩ := t
      obtain rfl : kind = .factorial := Token.terminal_eq_factorial_iff.1 ht
      refine if_neg fun hasked => ?_
      exact absurd (.factorial text hasked) (h _ _)
    · next op ht =>
      obtain rfl := Token.terminal_eq_binary_iff.1 ht
      exact binaryOperator_of_stuck h
    · next ht =>
      obtain rfl := Token.terminal_eq_closing_iff.1 ht
      cases fs with
      | nil => rfl
      | cons f fs => exact absurd .close (h _ _)
    · rfl

/-! ### What every move has in common -/

/-- A token continues a state in one way at most. -/
theorem Shift.unique {steps₁ steps₂ : List Step} {s₁ s₂ : State} (h₁ : Shift asked s t steps₁ s₁)
    (h₂ : Shift asked s t steps₂ s₂) : steps₁ = steps₂ ∧ s₁ = s₂ := by
  -- Every other token is taken whatever the limit is, so there `next` itself is the function.
  by_cases ht : t = .opening
  · subst ht
    obtain ⟨o₁, power₁, hposition₁, rfl, rfl⟩ := h₁.of_opening
    obtain ⟨o₂, power₂, hposition₂, rfl, rfl⟩ := h₂.of_opening
    have hposition : o₁.position power₁ = o₂.position power₂ := hposition₁.symm.trans hposition₂
    cases o₁ <;> cases o₂ <;> simp_all [Opener.position]
  · have hnext₁ : s.next asked 0 t = .shift steps₁ s₁ := next_of_shift h₁ fun h => absurd h ht
    have hnext₂ : s.next asked 0 t = .shift steps₂ s₂ := next_of_shift h₂ fun h => absurd h ht
    exact Move.shift.inj (hnext₁.symm.trans hnext₂)

/-- The open levels of a state are as many as the parentheses that its tokens leave open. -/
theorem Shift.length_frames (h : Shift asked s t steps s') :
    (s'.frames.length : Int) = s.frames.length + Token.depth [t] := by
  cases h with
  | close =>
    simp only [List.length_cons, Token.depth_closing]
    omega
  | _ => simp

/-- A number stands where an operand may stand, and none may stand after it. -/
theorem Shift.positions_of_number (h : Shift asked s t steps s') (ht : t.kind = .number) :
    (∃ power, s.position = .operand power) ∧ ∃ e powers, s'.position = .operator e powers := by
  cases h with
  | number text => exact ⟨⟨_, rfl⟩, _, _, rfl⟩
  | _ => cases ht

/-- A function stands where an operand may stand, and only its parenthesis may stand after it. -/
theorem Shift.positions_of_function (h : Shift asked s t steps s') (ht : t.kind = .function) :
    (∃ power, s.position = .operand power) ∧ ∃ f power, s'.position = .callee f power := by
  cases h with
  | name f => exact ⟨⟨_, rfl⟩, _, _, rfl⟩
  | _ => cases ht

end InfixArith
