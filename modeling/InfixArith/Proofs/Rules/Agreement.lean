import InfixArith.Proofs.Rules.Reading

/-!
# The rules and the states

The procedure of a rule and the one pass over the tokens reply alike (`Rule.run_eq_procedure`), so
what holds of the rules holds of `run` and `parse`.

From a parser and a state that are ready for a phrase, a procedure either reads the phrase as far as
it goes or fails as the pass does (`Reply.Follows`).  That the phrase goes no further is what the
calling procedure has to know of the next token.
-/

namespace InfixArith

section

variable (ts : List Token) (asked : Rule) (outer : Nat)

/-- The reply to a rule is what the tokens do from the state. -/
inductive Reply.Follows (r : Rule) (s : State) (p : Parser) : Reply → Prop
  /-- A phrase is read as far as it goes. -/
  | valid {e : Expr} {q : Parser} {s' : State} (h : Parser.Reads ts asked outer r s p e q s')
      (hpast : ∀ t, q.peek ts = some t → s'.Past asked r t) : Follows r s p ⟨.valid e, q⟩
  /-- The tokens are refused. -/
  | invalid {error : ParseError} {q : Parser} (h : Parser.Fails ts asked outer s p error q) :
      Follows r s p ⟨.invalid error, q⟩

/-- The procedure follows the states wherever the rule may stand. -/
def Procedure.Follows (levels : Nat) (r : Rule) (procedure : Procedure) : Prop :=
  ∀ s p, Parser.Ready ts asked outer levels r s p → (procedure p).Follows ts asked outer r s p

/-- The procedure reads an expression in parentheses, if there is room for them. -/
structure Procedure.Nests (levels : Nat) (nested : Procedure) : Prop where
  /-- At the limit it refuses. -/
  full : ∀ p : Parser, p.nesting = nestingLimit →
    nested p = ⟨.invalid (.nestingTooDeep nestingLimit), p⟩
  /-- Below the limit it reads an expression. -/
  follows : ∀ (f : Frame) (fs : List Frame) (p : Parser), p.cursor ≤ ts.length →
    p.nesting = outer + fs.length → p.nesting < nestingLimit → nestingLimit ≤ levels + p.nesting →
      (nested p).Follows ts asked outer .expression ⟨f :: fs, none, none, .operand none⟩ p

end

variable {ts : List Token} {asked r : Rule} {outer levels : Nat} {s s' : State} {p p' q : Parser}
  {e : Expr}

/-! ### The parts of the procedures -/

namespace Procedure

variable {nested operand : Procedure}

/-- What is read inside the parentheses becomes a primary at the closing one, and without it the
pass stops at the same place. -/
theorem follows_closing {o : Opener} {power : Pending .power} {x : Reply}
    (hs : s.position = .operand power)
    (hmoves : p.Moves ts asked outer s p'
      ⟨⟨o, s.sum, s.product, power⟩ :: s.frames, none, none, .operand none⟩)
    (hx : x.Follows ts asked outer .expression
      ⟨⟨o, s.sum, s.product, power⟩ :: s.frames, none, none, .operand none⟩ p') :
    (x.andThen fun e q =>
      if q.peek ts = some .closing then ⟨.valid (o.wrap e), q.advance.log o.leaveStep⟩
      else ⟨.invalid o.unclosed, q⟩).Follows ts asked outer .primary s p := by
  cases hx with
  | invalid hfails => exact .invalid (hmoves.fails hfails)
  | @valid e q s' hreads hpast =>
    rw [Reply.andThen_of_valid rfl]
    split
    · next hclosing =>
      exact .valid (.close hs hmoves hreads hclosing) fun t _ => State.past_primary _ t
    · next hclosing =>
      -- The state is past the expression, so only the closing parenthesis would go on.
      obtain ⟨-, e', powers, hposition⟩ := hreads.position_eq
      have hstuck : ∀ t, q.peek ts = some t → Stuck asked s' t := by
        intro t ht
        refine (hpast t ht).stuck hposition (Nat.zero_le _) fun h => ?_
        rw [h] at ht
        exact absurd ht hclosing
      obtain ⟨steps, hsteps, hending⟩ := hreads.ending hstuck
      exact .invalid (hmoves.fails ⟨_, steps, hsteps, hending⟩)

/-- The parser `q` is before the opening parenthesis, and `p` before the whole primary. -/
theorem follows_enclosed (hnests : nested.Nests ts asked outer levels) (o : Opener)
    {power : Pending .power} (hready : p.Ready ts asked outer levels .primary s)
    (hs : s.position = .operand power)
    (hmoves : p.Moves ts asked outer s q { s with position := o.position power })
    (hnesting : q.nesting = p.nesting) (hpeek : q.peek ts = some .opening) :
    (enclosed ts nested o q.advance).Follows ts asked outer .primary s p := by
  have hshift : Shift asked { s with position := o.position power } .opening [o.enterStep]
      ⟨⟨o, s.sum, s.product, power⟩ :: s.frames, none, none, .operand none⟩ := by
    cases o with
    | group => exact .group
    | call f => exact .call
  have hlevel : q.nesting = outer + s.frames.length := hnesting.trans hready.nesting_eq
  have hlimit : q.nesting ≤ nestingLimit := by rw [hnesting]; exact hready.nesting_le
  have hroom : State.room outer { s with position := o.position power } =
      nestingLimit - outer - s.frames.length := rfl
  unfold enclosed
  by_cases hfull : q.nesting = nestingLimit
  · -- The step of the parenthesis is written down before the limit is looked at.
    have hrefused := hnests.full (q.advance.log o.enterStep) hfull
    rw [hrefused]
    refine .invalid (hmoves.fails ⟨.opening :: ts.drop q.advance.cursor, [o.enterStep], rfl, ?_⟩)
    rw [Parser.drop_eq_cons hpeek]
    exact .tooDeep (.nil (by omega)) hshift (by omega)
  · have hopened : Parser.Moves ts asked outer { s with position := o.position power } q
        (q.advance.log o.enterStep)
        ⟨⟨o, s.sum, s.product, power⟩ :: s.frames, none, none, .operand none⟩ :=
      .of_shift hshift hpeek (by omega) (fun _ => by omega) rfl rfl
    have hinner := hnests.follows ⟨o, s.sum, s.product, power⟩ s.frames (q.advance.log o.enterStep)
      (Parser.lt_of_peek hpeek) hlevel (Nat.lt_of_le_of_ne hlimit hfull)
      (hnesting ▸ hready.levels_le)
    exact follows_closing hs (hmoves.trans hopened) hinner

/-- A primary follows the states when what stands in parentheses does. -/
theorem follows_primary (hnests : nested.Nests ts asked outer levels) :
    (primary ts nested).Follows ts asked outer levels .primary := by
  intro s p hready
  have hroom := hready.room_nonneg
  obtain ⟨power, hs⟩ := hready.awaits
  obtain ⟨fs, sum, product, position⟩ := s
  obtain rfl : position = .operand power := hs
  unfold primary
  split
  · next hpeek => exact .invalid (Parser.fails_of_none hroom hpeek rfl)
  · next t hpeek =>
    split
    · next text ht =>
      obtain rfl := Token.terminal_eq_number_iff.1 ht
      have htakes : Takes asked outer ⟨fs, sum, product, .operand power⟩ [.number text]
          (.literal text :: power.steps) ⟨fs, sum, product, afterPrimary power (.literal text)⟩ :=
        .of_shift (.number text) hroom fun h => absurd h nofun
      refine .valid ⟨_, _, [.literal text], ?_, rfl, htakes, ⟨power, rfl, rfl⟩, power, rfl, rfl⟩
        fun t _ => State.past_primary _ t
      exact Parser.drop_eq_cons hpeek
    · next ht =>
      obtain rfl := Token.terminal_eq_opening_iff.1 ht
      exact follows_enclosed hnests .group hready rfl (.refl hroom) rfl hpeek
    · next f ht =>
      obtain rfl := Token.terminal_eq_function_iff.1 ht
      have hmoves : p.Moves ts asked outer ⟨fs, sum, product, .operand power⟩ p.advance
          ⟨fs, sum, product, .callee f power⟩ :=
        .of_shift (.name f) hpeek hroom (fun h => absurd h nofun) rfl (List.append_nil _).symm
      split
      · next hopening => exact follows_enclosed hnests (.call f) hready rfl hmoves rfl hopening
      · next hopening =>
        cases hnext : p.advance.peek ts with
        | none => exact .invalid (hmoves.fails (Parser.fails_of_none hroom hnext rfl))
        | some t' =>
          have hstuck : Stuck asked ⟨fs, sum, product, .callee f power⟩ t' := by
            intro steps s' hshift
            cases hshift with
            | call => exact hopening hnext
          exact .invalid (hmoves.fails (Parser.fails_of_stuck hroom hnext hstuck rfl rfl))
    · next hnumber hopening hfunction =>
      have hstuck : Stuck asked ⟨fs, sum, product, .operand power⟩ t := by
        intro steps s' hshift
        cases hshift with
        | number text => exact hnumber text (Token.terminal_number text)
        | group => exact hopening (Token.terminal_eq_opening_iff.2 rfl)
        | name f => exact hfunction f (Token.terminal_function f)
      exact .invalid (Parser.fails_of_stuck hroom hpeek hstuck rfl rfl)

/-- The loop goes on from the parser `p` after the first operands, which begin at `p'`. -/
theorem follows_sequence (hr : r ≠ .factor) (hframed : operand.Framed ts)
    (hoperand : operand.Follows ts asked outer levels r.operand)
    (hready : p'.Ready ts asked outer levels r s) (rounds : Nat)
    (hcursor : p.cursor ≤ ts.length) (hnesting : p.nesting = p'.nesting)
    (hrounds : ts.length - p.cursor ≤ rounds) (hreads : p'.Reads ts asked outer r s e p s')
    (hpast : ∀ t, p.peek ts = some t → s'.Past asked r.operand t) :
    (sequence ts r operand rounds e p).Follows ts asked outer r s p' := by
  induction rounds generalizing e p s' with
  | zero =>
    have hpeek : p.peek ts = none := Parser.peek_eq_none_of_le (by omega)
    refine .valid hreads fun t ht => ?_
    cases hpeek.symm.trans ht
  | succ rounds ih =>
    unfold sequence
    split
    · next hop =>
      refine .valid hreads fun t ht => (hpast t ht).of_operand fun hrule => ?_
      rcases Token.rule?_eq_some_iff.1 hrule with ⟨op, hop', rfl⟩ | ⟨-, hfactor⟩
      · cases hop.symm.trans (Parser.operator?_eq_some_iff.2 ⟨ht, hop'⟩)
      · exact hr hfactor
    · next op hop =>
      obtain ⟨s₂, hmoves, hframes, hawaits, hjoin⟩ := hreads.binary hready hop
      obtain ⟨hpeek, -⟩ := Parser.operator?_eq_some_iff.1 hop
      have hwithin : p.advance.cursor ≤ ts.length := Parser.lt_of_peek hpeek
      have hnesting' : p.advance.nesting ≤ nestingLimit := by
        have hlimit := hready.nesting_le
        rw [← hnesting] at hlimit
        exact hlimit
      have hright := hoperand s₂ p.advance (hready.next hwithin hnesting hframes hawaits)
      obtain ⟨hframe, -⟩ := hframed p.advance hwithin hnesting'
      generalize operand p.advance = x at hright hframe
      cases hright with
      | invalid hfails => exact .invalid (hmoves.fails hfails)
      | @valid e' q s₃ hreads' hpast' =>
        rw [Reply.andThen_of_valid rfl]
        have hlt : p.cursor < q.cursor := hframe.cursor_le
        have hleft : ts.length - q.cursor ≤ rounds := by omega
        exact ih hframe.cursor_le_length (hframe.nesting_eq.trans hnesting) hleft
          (hjoin e' q s₃ hreads') hpast'

/-- Factorial signs after a power go on with the phrase of a factor up to the last of them. -/
theorem follows_signs (hready : p'.Ready ts asked outer levels .factor s) (rounds : Nat)
    (hrounds : ts.length - p.cursor ≤ rounds) (hreads : p'.Reads ts asked outer .factor s e p s')
    (hpast : ∀ t, p.peek ts = some t → s'.Past asked .power t) :
    (signs ts rounds e p).Follows ts asked outer .factor s p' := by
  induction rounds generalizing e p s' with
  | zero =>
    have hpeek : p.peek ts = none := Parser.peek_eq_none_of_le (by omega)
    refine .valid hreads fun t ht => ?_
    cases hpeek.symm.trans ht
  | succ rounds ih =>
    unfold signs
    split
    · next hsign =>
      obtain ⟨t, hpeek, ht⟩ := (Option.any_eq_true _ _).1 hsign
      have hleft : ts.length - (p.cursor + 1) ≤ rounds := by omega
      exact ih hleft (hreads.factorial hready hpeek ht) fun t _ => State.past_power rfl t
    · next hsign =>
      refine .valid hreads fun t ht => (hpast t ht).of_operand fun hrule => ?_
      rcases Token.rule?_eq_some_iff.1 hrule with ⟨op, hop, -⟩ | ⟨hfactorial, -⟩
      · cases op <;> cases hop
      · exact hsign (by rw [ht]; exact hfactorial)

/-- Operands joined by the operators of a rule follow the states when each operand does. -/
theorem follows_joined (hr : r ≠ .primary) (hr' : r ≠ .factor) (hframed : operand.Framed ts)
    (hoperand : operand.Follows ts asked outer levels r.operand) :
    (joined ts r operand).Follows ts asked outer levels r := by
  intro s p hready
  have hfirst := hoperand s p (hready.operand hr)
  obtain ⟨hframe, -⟩ := hframed p hready.cursor_le hready.nesting_le
  unfold joined
  generalize operand p = x at hfirst hframe
  cases hfirst with
  | invalid hfails => exact .invalid hfails
  | valid hreads hpast =>
    exact follows_sequence hr' hframed hoperand hready _ hframe.cursor_le_length hframe.nesting_eq
      (Nat.le_refl _) (hreads.of_operand hr hready.awaits) hpast

/-- An operand and its factorial signs follow the states when the operand does. -/
theorem follows_signed (hoperand : operand.Follows ts asked outer levels .power) :
    (signed ts operand).Follows ts asked outer levels .factor := by
  intro s p hready
  have hfirst := hoperand s p (hready.operand (by decide))
  unfold signed
  generalize operand p = x at hfirst
  cases hfirst with
  | invalid hfails => exact .invalid hfails
  | valid hreads hpast =>
    exact follows_signs hready _ (Nat.le_refl _)
      (hreads.of_operand (r := .factor) (by decide) hready.awaits) hpast

/-- All rules follow the states when what stands in parentheses does. -/
theorem follows_ruleWith (hframed : nested.Framed ts) (hnests : nested.Nests ts asked outer levels)
    (r : Rule) : (ruleWith ts nested r).Follows ts asked outer levels r := by
  have hboth : (ruleWith ts nested r).Framed ts ∧
      (ruleWith ts nested r).Follows ts asked outer levels r := by
    refine ruleWith_induction (motive := fun r procedure => procedure.Framed ts ∧
      procedure.Follows ts asked outer levels r) ?_ ?_ ?_ r
    · exact ⟨framed_primary hframed, follows_primary hnests⟩
    · rintro r operand hr hr' ⟨hoperand, hfollows⟩
      exact ⟨framed_joined hoperand r, follows_joined hr hr' hoperand hfollows⟩
    · rintro operand ⟨hoperand, hfollows⟩
      exact ⟨framed_signed hoperand, follows_signed hfollows⟩
  exact hboth.2

/-- A level is used up by each parenthesis, and the limit stops first. -/
theorem nests_nested (levels : Nat) :
    (Procedure.nested ts levels).Nests ts asked outer levels := by
  induction levels with
  | zero =>
    refine ⟨fun p hp => rfl, fun f fs p hcursor hlevel hlimit hlevels => ?_⟩
    omega
  | succ levels ih =>
    refine ⟨fun p hp => if_pos hp, fun f fs p hcursor hlevel hlimit hlevels => ?_⟩
    have hlevels' : nestingLimit ≤ levels + (p.nesting + 1) := by omega
    have hready : p.enter.Ready ts asked outer levels .expression
        ⟨f :: fs, none, none, .operand none⟩ :=
      ⟨hcursor, congrArg Nat.succ hlevel, hlimit, hlevels', ⟨rfl, rfl, rfl⟩, rfl⟩
    have hinner := follows_ruleWith (framed_nested levels) ih .expression _ _ hready
    unfold Procedure.nested
    rw [if_neg (Nat.ne_of_lt hlimit)]
    generalize ruleWith ts (Procedure.nested ts levels) .expression p.enter = x at hinner
    cases hinner with
    | invalid hfails => exact .invalid hfails
    | valid hreads hpast => exact .valid hreads hpast

end Procedure

/-- The procedure of every rule follows the states. -/
theorem Rule.follows_procedure (r : Rule) :
    (r.procedure ts).Follows ts asked outer nestingLimit r :=
  Procedure.follows_ruleWith (Procedure.framed_nested nestingLimit)
    (Procedure.nests_nested nestingLimit) r

/-- The rule replies as the pass over the tokens from its start does: with the same verdict and the
same steps, and when it replies with an expression, it leaves the same tokens. -/
theorem Rule.run_eq_procedure (ts : List Token) (r : Rule) (p : Parser)
    (hcursor : p.cursor ≤ ts.length) (hnesting : p.nesting ≤ nestingLimit) :
    (run r p.nesting .start p.steps.reverse (ts.drop p.cursor)).verdict =
        (r.procedure ts p).verdict ∧
      (run r p.nesting .start p.steps.reverse (ts.drop p.cursor)).steps =
        (r.procedure ts p).parser.steps ∧
      ((r.procedure ts p).verdict.isValid = true →
        (run r p.nesting .start p.steps.reverse (ts.drop p.cursor)).rest =
          ts.drop (r.procedure ts p).parser.cursor) := by
  have hready : p.Ready ts r p.nesting nestingLimit r .start :=
    ⟨hcursor, rfl, hnesting, Nat.le_add_right _ _, State.awaits_start r,
      decide_eq_true (Nat.le_refl _)⟩
  have hfollows : (r.procedure ts p).Follows ts r p.nesting r .start p :=
    Rule.follows_procedure r _ _ hready
  rw [run_taken, List.reverse_reverse]
  generalize r.procedure ts p = x at hfollows
  cases hfollows with
  | invalid hfails =>
    obtain ⟨rest, steps, hsteps, hending⟩ := hfails
    rw [hending.run_eq]
    exact ⟨rfl, hsteps.symm, nofun⟩
  | @valid e q s' hreads hpast =>
    obtain ⟨hframes, e', powers, hposition⟩ := hreads.position_eq
    have hrule : s'.ruleWithin r = r := by rw [State.ruleWithin, hframes]; rfl
    have hstuck : ∀ t, q.peek ts = some t → Stuck r s' t := by
      intro t ht
      have hrank : r.rank ≤ (s'.ruleWithin r).rank := Nat.le_of_eq (congrArg Rule.rank hrule.symm)
      exact (hpast t ht).stuck hposition hrank fun _ => hframes
    obtain ⟨steps, hsteps, hending⟩ :=
      (hreads.expression (State.awaits_start .expression)).ending hstuck
    rw [hending.run_eq]
    exact ⟨rfl, hsteps.symm, fun _ => rfl⟩

end InfixArith
