import InfixArith.Proofs.Parsing.Completeness
import InfixArith.Proofs.Rules.Frame

/-!
# What the tokens between two parsers do

The tokens between two parsers lead from one state to another, as a rule with the steps that stand
between the parsers (`Parser.Moves`).  When the tokens are a phrase, the state after it may owe some
of the steps, those that join the last operands (`Parser.Reads`); the next operator takes them
(`Parser.Reads.binary`), and so does a closing parenthesis (`Parser.Reads.close`) or the end of the
reading (`Parser.Reads.ending`).  An error is what the reading ends with (`Parser.Fails`).

After a phrase the next token is not one that the phrase could go on with; `State.Past` says this of
the state.
-/

namespace InfixArith

/-- The rule whose phrases may go on with the token, if there is one. -/
def Token.rule? (t : Token) : Option Rule :=
  match t.terminal with
  | .binary op => some op.rule
  | .factorial => some .factor
  | _ => none

/-- The state is past the phrases of the rule and of tighter rules: it does not go on with the token
if one of these could. -/
def State.Past (asked r : Rule) (s : State) (t : Token) : Prop :=
  ∀ r', t.rule? = some r' → r.rank ≤ r'.rank → Stuck asked s t

/-- What is said when the expression at the innermost level ends and is not closed. -/
def State.verdictAfter (s : State) (e : Expr) : Verdict :=
  match s.frames with
  | [] => .valid e
  | f :: _ => .invalid f.opener.unclosed

section

variable (ts : List Token) (asked : Rule) (outer : Nat)

/-- The tokens from `p` to `q` lead from the one state to the other and have the same steps. -/
def Parser.Moves (s : State) (p q : Parser) (s' : State) : Prop :=
  ∃ us steps, ts.drop p.cursor = us ++ ts.drop q.cursor ∧ q.steps = p.steps ++ steps ∧
    Takes asked outer s us steps s'

/-- The tokens from `p` to `q` are a phrase of the rule and lead from the one state to the other,
which may owe some of the steps. -/
def Parser.Reads (r : Rule) (s : State) (p : Parser) (e : Expr) (q : Parser) (s' : State) : Prop :=
  ∃ us taken steps, ts.drop p.cursor = us ++ ts.drop q.cursor ∧ q.steps = p.steps ++ steps ∧
    Takes asked outer s us taken s' ∧ s.After e s' r ∧ s.StepsAfter steps taken s' r

/-- Reading from the state ends with the error and with the steps from `p` to `q`. -/
def Parser.Fails (s : State) (p : Parser) (error : ParseError) (q : Parser) : Prop :=
  ∃ rest steps, q.steps = p.steps ++ steps ∧
    Ending asked outer s (ts.drop p.cursor) ⟨.invalid error, rest, steps⟩

/-- The parser and the state are at the same place and await a phrase of the rule, and there are
levels enough for all parentheses up to the limit. -/
structure Parser.Ready (levels : Nat) (r : Rule) (s : State) (p : Parser) : Prop where
  /-- The parser is within the tokens. -/
  cursor_le : p.cursor ≤ ts.length
  /-- The parentheses around the state and those in it are open. -/
  nesting_eq : p.nesting = outer + s.frames.length
  /-- The limit is kept. -/
  nesting_le : p.nesting ≤ nestingLimit
  /-- There is a level for each parenthesis that may still be opened. -/
  levels_le : nestingLimit ≤ levels + p.nesting
  /-- The state awaits the phrase. -/
  awaits : s.Awaits r
  /-- The phrase may stand there. -/
  admits : (s.ruleWithin asked).admits r = true

end

variable {ts : List Token} {asked r : Rule} {outer levels : Nat} {s s' s'' : State}
  {p p' q q' : Parser} {t : Token} {e : Expr} {powers : Bool} {error : ParseError}
  {steps : List Step} {op : BinaryOp}

/-! ### The token after a phrase -/

/-- The phrases that go on with an operator are those of its rule. -/
theorem Token.rule?_operator (op : BinaryOp) : (Token.operator op.symbol).rule? = some op.rule := by
  rw [rule?, Token.terminal_eq_binary_iff.2 rfl]

/-- The phrases that go on with a factorial sign are the factors. -/
theorem Token.rule?_factorial (text : String) : Token.rule? ⟨.factorial, text⟩ = some .factor :=
  rfl

/-- Only binary operators and factorial signs go on with a phrase. -/
theorem Token.rule?_eq_some_iff :
    t.rule? = some r ↔
      (∃ op : BinaryOp, op.rule = r ∧ t = .operator op.symbol) ∨
        t.isFactorial = true ∧ r = .factor := by
  constructor
  · intro h
    unfold rule? at h
    split at h
    · next op ht => exact .inl ⟨op, Option.some.inj h, Token.terminal_eq_binary_iff.1 ht⟩
    · next ht =>
      have hkind : t.kind = .factorial := Token.terminal_eq_factorial_iff.1 ht
      exact .inr ⟨Token.isFactorial_iff.2 hkind, (Option.some.inj h).symm⟩
    · cases h
  · rintro (⟨op, rfl, rfl⟩ | ⟨ht, rfl⟩)
    · exact Token.rule?_operator op
    · rw [rule?, Token.terminal_eq_factorial_iff.2 (Token.isFactorial_iff.1 ht)]

/-- After an operand only a closing parenthesis and the operators of admitted rules are taken. -/
theorem Shift.rule?_of_operator (h : Shift asked s t steps s')
    (hs : s.position = .operator e powers) :
    (t = .closing ∧ s.frames ≠ []) ∨
      ∃ r, t.rule? = some r ∧ (s.ruleWithin asked).admits r = true := by
  cases h with
  | factorial text hasked => exact .inr ⟨.factor, Token.rule?_factorial text, hasked⟩
  | sum op hop hasked => exact .inr ⟨.expression, hop ▸ Token.rule?_operator op, hasked⟩
  | product op hop hasked => exact .inr ⟨.term, hop ▸ Token.rule?_operator op, hasked⟩
  | power op hop hasked => exact .inr ⟨.power, hop ▸ Token.rule?_operator op, hasked⟩
  | close => exact .inl ⟨rfl, nofun⟩
  | _ => cases hs

namespace State

/-- A state past all phrases that may stand there takes at most a closing parenthesis. -/
theorem Past.stuck (h : s.Past asked r t) (hs : s.position = .operator e powers)
    (hr : r.rank ≤ (s.ruleWithin asked).rank) (hclosing : t = .closing → s.frames = []) :
    Stuck asked s t := by
  intro steps s' hshift
  rcases hshift.rule?_of_operator hs with ⟨ht, hframes⟩ | ⟨r', hrule, hadmits⟩
  · exact hframes (hclosing ht)
  · have hle : (s.ruleWithin asked).rank ≤ r'.rank := of_decide_eq_true hadmits
    exact h r' hrule (Nat.le_trans hr hle) steps s' hshift

/-- Past the parts of a sequence and at none of its operators, a state is past the sequence. -/
theorem Past.of_operand (h : s.Past asked r.operand t) (ht : t.rule? ≠ some r) :
    s.Past asked r t := by
  intro r' hrule hle
  have hne : r.rank ≠ r'.rank := by
    intro heq
    rw [← Rule.eq_of_rank_eq heq] at hrule
    exact ht hrule
  have hlt : r.rank < r'.rank := Nat.lt_of_le_of_ne hle hne
  refine h r' hrule ?_
  rw [(Rule.rank_operand_of_lt hlt).2]
  exact hlt

/-- No operator goes on with a primary. -/
theorem past_primary (s : State) (t : Token) : s.Past asked .primary t := by
  intro r' hrule hle
  rcases Token.rule?_eq_some_iff.1 hrule with ⟨op, rfl, -⟩ | ⟨-, rfl⟩
  · cases op <;> exact absurd hle (by decide)
  · exact absurd hle (by decide)

/-- No power goes on after a factorial sign. -/
theorem past_power (hs : s.position = .operator e false) (t : Token) : s.Past asked .power t := by
  intro r' hrule hle steps s' hshift
  cases hshift with
  | factorial text =>
    obtain rfl := Option.some.inj ((Token.rule?_factorial text).symm.trans hrule)
    exact absurd hle (by decide)
  | sum op hop =>
    obtain rfl := Option.some.inj ((Token.rule?_operator op).symm.trans hrule)
    rw [hop] at hle
    exact absurd hle (by decide)
  | product op hop =>
    obtain rfl := Option.some.inj ((Token.rule?_operator op).symm.trans hrule)
    rw [hop] at hle
    exact absurd hle (by decide)
  | close => cases hrule
  | _ => cases hs

/-- Before the first token a phrase of any rule is awaited. -/
theorem awaits_start (r : Rule) : start.Awaits r := by
  cases r with
  | expression => exact ⟨rfl, rfl, rfl⟩
  | term => exact ⟨rfl, rfl⟩
  | factor => rfl
  | power => rfl
  | primary => exact ⟨none, rfl⟩

/-- After a phrase an operator may stand, at the same level as before. -/
theorem After.position_eq (h : s.After e s' r) :
    s'.frames = s.frames ∧ ∃ e' powers, s'.position = .operator e' powers := by
  cases r with
  | primary =>
    obtain ⟨power, -, rfl⟩ := h
    exact ⟨rfl, _, _, rfl⟩
  | power =>
    obtain rfl : s' = _ := h
    exact ⟨rfl, _, _, rfl⟩
  | factor =>
    obtain ⟨powers, rfl⟩ := h
    exact ⟨rfl, _, _, rfl⟩
  | term =>
    obtain ⟨product, e', powers, -, rfl⟩ := h
    exact ⟨rfl, _, _, rfl⟩
  | expression =>
    obtain ⟨sum, product, e', powers, -, rfl⟩ := h
    exact ⟨rfl, _, _, rfl⟩

end State

/-! ### Parsers and states -/

/-- The tokens that are left begin with the one that the parser sees. -/
theorem Parser.drop_eq_cons (h : p.peek ts = some t) :
    ts.drop p.cursor = t :: ts.drop p.advance.cursor := by
  obtain ⟨hlt, ht⟩ := List.getElem?_eq_some_iff.1 h
  rw [List.drop_eq_getElem_cons hlt, ht]
  rfl

/-- When the parser sees no token, none is left. -/
theorem Parser.drop_eq_nil (h : p.peek ts = none) : ts.drop p.cursor = [] :=
  List.drop_eq_nil_of_le (List.getElem?_eq_none_iff.1 h)

namespace Parser

/-- Where a phrase may stand, the limit is kept. -/
theorem Ready.room_nonneg (h : p.Ready ts asked outer levels r s) : 0 ≤ s.room outer := by
  have hnesting := h.nesting_eq
  have hlimit := h.nesting_le
  rw [State.room]
  omega

/-- A later parser at the same level is ready for the next part of the phrase. -/
theorem Ready.next (h : p.Ready ts asked outer levels r s) (hcursor : q.cursor ≤ ts.length)
    (hnesting : q.nesting = p.nesting) (hframes : s'.frames = s.frames)
    (hawaits : s'.Awaits r.operand) : q.Ready ts asked outer levels r.operand s' where
  cursor_le := hcursor
  nesting_eq := by rw [hnesting, hframes, h.nesting_eq]
  nesting_le := by rw [hnesting]; exact h.nesting_le
  levels_le := by rw [hnesting]; exact h.levels_le
  awaits := hawaits
  admits := by
    have hrule : s'.ruleWithin asked = s.ruleWithin asked := by
      rw [State.ruleWithin, State.ruleWithin, hframes]
    rw [hrule]
    exact decide_eq_true (Nat.le_trans (of_decide_eq_true h.admits) r.rank_le_rank_operand)

/-- Where a phrase is awaited, its first part is awaited. -/
theorem Ready.operand (h : p.Ready ts asked outer levels r s) (hr : r ≠ .primary) :
    p.Ready ts asked outer levels r.operand s :=
  h.next h.cursor_le rfl rfl (h.awaits.operand hr)

/-- Where no token is read, the state stays as it is. -/
theorem Moves.refl (h : 0 ≤ s.room outer) : p.Moves ts asked outer s p s :=
  ⟨[], [], rfl, (List.append_nil _).symm, .nil h⟩

/-- The tokens between three parsers lead from the first state to the last one. -/
theorem Moves.trans (h : Moves ts asked outer s p q s') (h' : Moves ts asked outer s' q q' s'') :
    Moves ts asked outer s p q' s'' := by
  obtain ⟨us, steps, htokens, hsteps, htakes⟩ := h
  obtain ⟨us', steps', htokens', hsteps', htakes'⟩ := h'
  refine ⟨us ++ us', steps ++ steps', ?_, ?_, htakes.append htakes'⟩
  · rw [htokens, htokens', List.append_assoc]
  · rw [hsteps', hsteps, List.append_assoc]

/-- The moves before an error only add their steps to it. -/
theorem Moves.fails (h : Moves ts asked outer s p q s') (h' : Fails ts asked outer s' q error q') :
    Fails ts asked outer s p error q' := by
  obtain ⟨us, steps, htokens, hsteps, htakes⟩ := h
  obtain ⟨rest, steps', hsteps', hending⟩ := h'
  refine ⟨rest, steps ++ steps', ?_, ?_⟩
  · rw [hsteps', hsteps, List.append_assoc]
  · rw [htokens]
    exact hending.prepend htakes

/-- A token that continues the state is a move, if it does not open one parenthesis too many. -/
theorem Moves.of_shift (h : Shift asked s t steps s') (hpeek : p.peek ts = some t)
    (hs : 0 ≤ s.room outer) (hroom : t = .opening → 0 < s.room outer)
    (hcursor : q.cursor = p.advance.cursor) (hsteps : q.steps = p.steps ++ steps) :
    Moves ts asked outer s p q s' := by
  refine ⟨[t], steps, ?_, hsteps, .of_shift h hs hroom⟩
  rw [drop_eq_cons hpeek, hcursor]
  rfl

/-- When no token is left and the state is not final, the reading ends with the error of the state.
-/
theorem fails_of_none (hs : 0 ≤ s.room outer) (hpeek : p.peek ts = none)
    (hfinish : s.finish = ([], .invalid error)) : Fails ts asked outer s p error p := by
  have hending : Ending asked outer s [] ⟨s.finish.2, [], [] ++ s.finish.1⟩ := .finished (.nil hs)
  rw [hfinish] at hending
  refine ⟨[], [], (List.append_nil _).symm, ?_⟩
  rw [drop_eq_nil hpeek]
  exact hending

/-- When the next token does not continue the state, the reading ends with the error of the state at
this token. -/
theorem fails_of_stuck (hs : 0 ≤ s.room outer) (hpeek : p.peek ts = some t)
    (hstuck : Stuck asked s t) (hrefuse : s.refuse t = ([], .invalid error))
    (hsteps : q.steps = p.steps) : Fails ts asked outer s p error q := by
  have hending : Ending asked outer s ([] ++ t :: ts.drop p.advance.cursor)
      ⟨(s.refuse t).2, t :: ts.drop p.advance.cursor, [] ++ (s.refuse t).1⟩ :=
    .stuck (.nil hs) hstuck
  rw [hrefuse] at hending
  refine ⟨t :: ts.drop p.advance.cursor, [], hsteps.trans (List.append_nil _).symm, ?_⟩
  rw [drop_eq_cons hpeek]
  exact hending

/-! ### Phrases that are read -/

/-- After a phrase the same parentheses are open as before it, and an operator may come. -/
theorem Reads.position_eq (h : Reads ts asked outer r s p e q s') :
    s'.frames = s.frames ∧ ∃ e' powers, s'.position = .operator e' powers := by
  obtain ⟨-, -, -, -, -, -, hafter, -⟩ := h
  exact hafter.position_eq

/-- A sequence of one part is read as the part is. -/
theorem Reads.of_operand (hr : r ≠ .primary) (hs : s.Awaits r)
    (h : Reads ts asked outer r.operand s p e q s') : Reads ts asked outer r s p e q s' := by
  obtain ⟨us, taken, steps, htokens, hsteps, htakes, hafter, htaken⟩ := h
  exact ⟨us, taken, steps, htokens, hsteps, htakes, hafter.of_operand hr hs,
    htaken.of_operand hr hs hafter⟩

/-- Where an expression is awaited, every phrase is one. -/
theorem Reads.expression (hs : s.Awaits .expression) (h : Reads ts asked outer r s p e q s') :
    Reads ts asked outer .expression s p e q s' := by
  have hterm : s.Awaits .term := hs.operand (by decide)
  have hfactor : s.Awaits .factor := hterm.operand (by decide)
  have hpower : s.Awaits .power := hfactor.operand (by decide)
  cases r with
  | expression => exact h
  | term => exact h.of_operand (by decide) hs
  | factor => exact (h.of_operand (r := .term) (by decide) hterm).of_operand (by decide) hs
  | power =>
    have h' := h.of_operand (r := .factor) (by decide) hfactor
    exact (h'.of_operand (r := .term) (by decide) hterm).of_operand (by decide) hs
  | primary =>
    have h' := h.of_operand (r := .power) (by decide) hpower
    have h'' := h'.of_operand (r := .factor) (by decide) hfactor
    exact (h''.of_operand (r := .term) (by decide) hterm).of_operand (by decide) hs

/-- An operator after a phrase of its rule takes the steps that were owed, and the state after it
awaits the right operand. -/
theorem Reads.binary (hready : p.Ready ts asked outer levels r s)
    (h : Reads ts asked outer r s p e q s') (hop : q.operator? ts r = some op) :
    ∃ s₂, Moves ts asked outer s p q.advance s₂ ∧ s₂.frames = s.frames ∧ s₂.Awaits r.operand ∧
      ∀ e' q' s₃, Reads ts asked outer r.operand s₂ q.advance e' q' s₃ →
        Reads ts asked outer r s p (.binary op e e') (q'.log (.joined op)) s₃ := by
  obtain ⟨us, taken, steps, htokens, hsteps, htakes, hafter, htaken⟩ := h
  obtain ⟨hpeek, hrule⟩ := operator?_eq_some_iff.1 hop
  obtain ⟨between, s₂, hshift, ⟨hframes, hawaits, hbetween⟩, hjoin⟩ :=
    exists_shift_binary asked op hrule hready.admits hready.awaits hafter htaken
  have htake : Takes asked outer s' [.operator op.symbol] between s₂ := by
    refine .of_shift hshift htakes.room_nonneg fun hopening => ?_
    exact absurd hopening (Token.operator_symbol_ne_opening op)
  have hdrop := drop_eq_cons hpeek
  refine ⟨s₂, ⟨us ++ [.operator op.symbol], taken ++ between, ?_, ?_, htakes.append htake⟩,
    hframes, hawaits, ?_⟩
  · rw [htokens, hdrop, List.append_assoc]
    rfl
  · rw [hbetween]
    exact hsteps
  · rintro e' q' s₃ ⟨us', taken', steps', htokens', hsteps', htakes', hafter', htaken'⟩
    obtain ⟨hafter₃, htaken₃⟩ := hjoin e' s₃ steps' taken' hafter' htaken'
    refine ⟨us ++ ([.operator op.symbol] ++ us'), _, _, ?_, ?_,
      htakes.append (htake.append htakes'), hafter₃, htaken₃⟩
    · rw [htokens, hdrop, htokens']
      simp [Parser.log]
    · have hright : q'.steps = q.steps ++ steps' := hsteps'
      simp [Parser.log, hright, hsteps]

/-- A factorial sign after a factor is taken at once. -/
theorem Reads.factorial (hready : p.Ready ts asked outer levels .factor s)
    (h : Reads ts asked outer .factor s p e q s') (hpeek : q.peek ts = some t)
    (ht : t.isFactorial = true) :
    Reads ts asked outer .factor s p (.factorial e) (q.advance.log .factorial)
      { s with position := .operator (.factorial e) false } := by
  obtain ⟨us, taken, steps, htokens, hsteps, htakes, ⟨powers, rfl⟩, htaken⟩ := h
  obtain rfl : taken = steps := htaken
  obtain ⟨kind, text⟩ := t
  obtain rfl : kind = .factorial := Token.isFactorial_iff.1 ht
  have htake : Takes asked outer { s with position := .operator e powers } [⟨.factorial, text⟩]
      [.factorial] { s with position := .operator (.factorial e) false } :=
    .of_shift (.factorial text hready.admits) htakes.room_nonneg nofun
  refine ⟨us ++ [⟨.factorial, text⟩], taken ++ [.factorial], taken ++ [.factorial], ?_, ?_,
    htakes.append htake, ⟨false, rfl⟩, ?_⟩
  · rw [htokens, drop_eq_cons hpeek, List.append_assoc]
    rfl
  · simp [Parser.log, Parser.advance, hsteps]
  · rfl

/-- The closing parenthesis makes a primary of the expression before it. -/
theorem Reads.close {o : Opener} {power : Pending .power} (hs : s.position = .operand power)
    (hmoves : Moves ts asked outer s p p'
      ⟨⟨o, s.sum, s.product, power⟩ :: s.frames, none, none, .operand none⟩)
    (h : Reads ts asked outer .expression
      ⟨⟨o, s.sum, s.product, power⟩ :: s.frames, none, none, .operand none⟩ p' e q s')
    (hclosing : q.peek ts = some .closing) :
    Reads ts asked outer .primary s p (o.wrap e) (q.advance.log o.leaveStep)
      { s with position := afterPrimary power (o.wrap e) } := by
  obtain ⟨us, steps, htokens, hsteps, htakes⟩ := hmoves
  obtain ⟨us', taken, steps', htokens', hsteps', htakes', ⟨sum, product, e', powers, rfl, rfl⟩,
    htaken⟩ := h
  have htaken' : taken ++ (product.steps ++ sum.steps) = steps' := htaken
  have hshift : Shift asked
      ⟨⟨o, s.sum, s.product, power⟩ :: s.frames, sum, product, .operator e' powers⟩ .closing
      (product.steps ++ sum.steps ++ o.leaveStep :: power.steps)
      ⟨s.frames, s.sum, s.product, afterPrimary power (o.wrap (sum.join (product.join e')))⟩ :=
    .close
  have htake := Takes.of_shift hshift htakes'.room_nonneg fun h => absurd h (by decide)
  refine ⟨_, _, steps ++ (steps' ++ [o.leaveStep]), ?_, ?_,
    htakes.append (htakes'.append htake), ⟨power, hs, rfl⟩, power, hs, ?_⟩
  · rw [htokens, htokens', drop_eq_cons hclosing]
    simp [Parser.log]
  · simp [Parser.log, Parser.advance, hsteps, hsteps']
  · rw [← htaken']
    simp

/-- An expression that nothing goes on with ends the reading, and the steps that were owed are
taken. -/
theorem Reads.ending (h : Reads ts asked outer .expression s p e q s')
    (hstuck : ∀ t, q.peek ts = some t → Stuck asked s' t) :
    ∃ steps, q.steps = p.steps ++ steps ∧
      Ending asked outer s (ts.drop p.cursor) ⟨s.verdictAfter e, ts.drop q.cursor, steps⟩ := by
  obtain ⟨us, taken, steps, htokens, hsteps, htakes, ⟨sum, product, e', powers, rfl, rfl⟩,
    htaken⟩ := h
  have htaken' : taken ++ (product.steps ++ sum.steps) = steps := htaken
  have hstop : (State.mk s.frames sum product (.operator e' powers)).stop e' =
      (product.steps ++ sum.steps, s.verdictAfter (sum.join (product.join e'))) := by
    rw [State.stop, State.verdictAfter]
    cases s.frames <;> rfl
  refine ⟨steps, hsteps, ?_⟩
  rw [htokens]
  cases hpeek : q.peek ts with
  | none =>
    have hfinish : (State.mk s.frames sum product (.operator e' powers)).finish = _ := hstop
    have hending := Ending.finished htakes
    rw [hfinish, htaken'] at hending
    rw [drop_eq_nil hpeek, List.append_nil]
    exact hending
  | some t =>
    have hrefuse : (State.mk s.frames sum product (.operator e' powers)).refuse t = _ := hstop
    have hending : Ending asked outer s (us ++ t :: ts.drop q.advance.cursor) _ :=
      .stuck htakes (hstuck t hpeek)
    rw [hrefuse, htaken'] at hending
    rw [drop_eq_cons hpeek]
    exact hending

end Parser

end InfixArith
