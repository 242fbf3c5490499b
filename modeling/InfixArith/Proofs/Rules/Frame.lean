import InfixArith.Proofs.Rules.Procedure

/-!
# What every rule keeps

Whether a rule replies with an expression or with an error, it does not go back and not past the
last token, it leaves as many parentheses open as it has found, it never opens more than the limit
allows, and it only adds to the steps and logs those that it adds (`Parser.Frame`); with an
expression it has read one token at least (`Reply.Framed`).  Each part that procedures are made of
keeps this when the procedures that it calls do, so all rules do (`Rule.framed_procedure`).
-/

namespace InfixArith

/-- The parser `q` is `p` after some of the tokens. -/
structure Parser.Frame (ts : List Token) (p q : Parser) : Prop where
  /-- No token is given back. -/
  cursor_le : p.cursor ≤ q.cursor
  /-- No more tokens are read than there are. -/
  cursor_le_length : q.cursor ≤ ts.length
  /-- As many parentheses are open as before. -/
  nesting_eq : q.nesting = p.nesting
  /-- The limit has been kept in between. -/
  deepest_le : q.deepest ≤ max p.deepest nestingLimit
  /-- Steps are only added, and those that are added are logged. -/
  steps_eq : ∃ steps, q.steps = p.steps ++ steps ∧ q.journal = p.journal.addSteps steps

/-- The reply leaves the parser in the frame, and an expression has taken a token. -/
structure Reply.Framed (ts : List Token) (p : Parser) (x : Reply) : Prop where
  /-- The parser is left in the frame. -/
  frame : p.Frame ts x.parser
  /-- An expression has at least one token. -/
  cursor_lt : x.verdict.isValid = true → p.cursor < x.parser.cursor

/-- From every parser within its tokens and its limit the procedure replies in the frame. -/
def Procedure.Framed (ts : List Token) (procedure : Procedure) : Prop :=
  ∀ p : Parser, p.cursor ≤ ts.length → p.nesting ≤ nestingLimit → (procedure p).Framed ts p

variable {ts : List Token} {p q q' : Parser} {t : Token} {x : Reply} {error : ParseError}
  {operand : Procedure}

/-! ### Frames -/

namespace Parser.Frame

/-- A parser within the tokens is in its own frame. -/
theorem refl (hp : p.cursor ≤ ts.length) : p.Frame ts p :=
  ⟨Nat.le_refl _, hp, rfl, Nat.le_max_left _ _, [], (List.append_nil _).symm, rfl⟩

/-- What two procedures keep one after the other is kept by both together. -/
theorem trans (h : p.Frame ts q) (h' : q.Frame ts q') : p.Frame ts q' where
  cursor_le := Nat.le_trans h.cursor_le h'.cursor_le
  cursor_le_length := h'.cursor_le_length
  nesting_eq := h'.nesting_eq.trans h.nesting_eq
  deepest_le := by
    have hfirst : q.deepest ≤ max p.deepest nestingLimit := h.deepest_le
    have hsecond : q'.deepest ≤ max q.deepest nestingLimit := h'.deepest_le
    omega
  steps_eq := by
    obtain ⟨steps, hsteps, hjournal⟩ := h.steps_eq
    obtain ⟨steps', hsteps', hjournal'⟩ := h'.steps_eq
    refine ⟨steps ++ steps', ?_, ?_⟩
    · rw [hsteps', hsteps, List.append_assoc]
    · rw [hjournal', hjournal, Log.addSteps_append]

/-- The steps of the parser before are the first ones of the parser after. -/
theorem steps_le (h : p.Frame ts q) : p.steps <+: q.steps := by
  obtain ⟨steps, hsteps, -⟩ := h.steps_eq
  exact ⟨steps, hsteps.symm⟩

/-- Reading the next token stays in the frame. -/
theorem advance (h : p.peek ts = some t) : p.Frame ts p.advance :=
  ⟨Nat.le_succ _, Parser.lt_of_peek h, rfl, Nat.le_max_left _ _, [], (List.append_nil _).symm, rfl⟩

/-- Writing down a step stays in the frame. -/
theorem log (hp : p.cursor ≤ ts.length) (step : Step) : p.Frame ts (p.log step) :=
  ⟨Nat.le_refl _, hp, rfl, Nat.le_max_left _ _, [step], rfl, rfl⟩

/-- A parser in the frame is again within its limit. -/
theorem nesting_le (h : p.Frame ts q) (hp : p.nesting ≤ nestingLimit) :
    q.nesting ≤ nestingLimit := by
  rw [h.nesting_eq]
  exact hp

/-- Going on after an expression stays in the frame when both parts do. -/
theorem andThen {next : Expr → Procedure} (hx : p.Frame ts x.parser)
    (hnext : ∀ e, x.verdict = .valid e → x.parser.Frame ts (next e x.parser).parser) :
    p.Frame ts (x.andThen next).parser := by
  cases hverdict : x.verdict with
  | valid e =>
    rw [Reply.andThen_of_valid hverdict]
    exact hx.trans (hnext e hverdict)
  | invalid error =>
    rw [Reply.andThen_of_invalid hverdict]
    exact hx

end Parser.Frame

namespace Reply.Framed

/-- An error needs no progress. -/
theorem of_invalid (h : p.Frame ts q) : Framed ts p ⟨.invalid error, q⟩ :=
  ⟨h, nofun⟩

/-- A reply that is gone on with is framed when the first part is and the rest stays in the frame.
-/
theorem andThen {next : Expr → Procedure} (hx : x.Framed ts p)
    (hnext : ∀ e, x.verdict = .valid e → x.parser.Frame ts (next e x.parser).parser) :
    (x.andThen next).Framed ts p := by
  refine ⟨hx.frame.andThen hnext, fun hvalid => ?_⟩
  cases hverdict : x.verdict with
  | valid e =>
    rw [Reply.andThen_of_valid hverdict]
    have hfirst : p.cursor < x.parser.cursor := hx.cursor_lt (by rw [hverdict]; rfl)
    exact Nat.lt_of_lt_of_le hfirst (hnext e hverdict).cursor_le
  | invalid error =>
    rw [Reply.andThen_of_invalid hverdict, hverdict] at hvalid
    cases hvalid

/-- What has been read before a procedure counts for it. -/
theorem prepend (h : p.Frame ts q) (hx : x.Framed ts q) : x.Framed ts p :=
  ⟨h.trans hx.frame, fun hvalid => Nat.lt_of_le_of_lt h.cursor_le (hx.cursor_lt hvalid)⟩

end Reply.Framed

/-! ### The parts of the procedures -/

namespace Procedure

/-- What follows the parenthesis of an opener is framed when the expression in it is. -/
theorem framed_enclosed {nested : Procedure} (hnested : nested.Framed ts) (o : Opener) :
    (enclosed ts nested o).Framed ts := by
  intro p hcursor hnesting
  have hlog : p.Frame ts (p.log o.enterStep) := .log hcursor _
  have hinner : (nested (p.log o.enterStep)).Framed ts p :=
    .prepend hlog (hnested _ hcursor hnesting)
  refine hinner.andThen fun e he => ?_
  split
  · next hclosing =>
    have hadvance := Parser.Frame.advance hclosing
    exact hadvance.trans (.log hadvance.cursor_le_length _)
  · exact .refl hinner.frame.cursor_le_length

/-- A primary is framed when what stands in parentheses is. -/
theorem framed_primary {nested : Procedure} (hnested : nested.Framed ts) :
    (primary ts nested).Framed ts := by
  intro p hcursor hnesting
  unfold primary
  split
  · exact .of_invalid (.refl hcursor)
  · next t hpeek =>
    have hadvance : p.Frame ts p.advance := .advance hpeek
    have hwithin : p.advance.cursor ≤ ts.length := hadvance.cursor_le_length
    split
    · exact ⟨hadvance.trans (.log hwithin _), fun _ => Nat.lt_succ_self _⟩
    · exact .prepend hadvance (framed_enclosed hnested .group _ hwithin hnesting)
    · next f _ =>
      split
      · next hopening =>
        have hopened : p.Frame ts p.advance.advance := hadvance.trans (.advance hopening)
        exact .prepend hopened
          (framed_enclosed hnested (.call f) _ hopened.cursor_le_length hnesting)
      · exact .of_invalid hadvance
    · exact .of_invalid hadvance

/-- The rounds of a sequence stay in the frame when each operand does. -/
theorem frame_sequence (hoperand : operand.Framed ts) (r : Rule) (rounds : Nat) (e : Expr)
    (hcursor : p.cursor ≤ ts.length) (hnesting : p.nesting ≤ nestingLimit) :
    p.Frame ts (sequence ts r operand rounds e p).parser := by
  induction rounds generalizing e p with
  | zero => exact .refl hcursor
  | succ rounds ih =>
    unfold sequence
    split
    · exact .refl hcursor
    · next op hop =>
      obtain ⟨hpeek, -⟩ := Parser.operator?_eq_some_iff.1 hop
      have hadvance : p.Frame ts p.advance := .advance hpeek
      have hright := hoperand p.advance hadvance.cursor_le_length hnesting
      refine (hadvance.trans hright.frame).andThen fun e' he' => ?_
      have hwithin := hright.frame.cursor_le_length
      exact (Parser.Frame.log hwithin _).trans
        (ih _ hwithin ((hadvance.trans hright.frame).nesting_le hnesting))

/-- The rounds over factorial signs stay in the frame. -/
theorem frame_signs (rounds : Nat) (e : Expr) (hcursor : p.cursor ≤ ts.length) :
    p.Frame ts (signs ts rounds e p).parser := by
  induction rounds generalizing e p with
  | zero => exact .refl hcursor
  | succ rounds ih =>
    unfold signs
    split
    · next hsign =>
      obtain ⟨t, hpeek, -⟩ := (Option.any_eq_true _ _).1 hsign
      have hadvance : p.Frame ts p.advance := .advance hpeek
      have hlog : p.Frame ts (p.advance.log .factorial) :=
        hadvance.trans (.log hadvance.cursor_le_length _)
      exact hlog.trans (ih _ hlog.cursor_le_length)
    · exact .refl hcursor

/-- Operands joined by the operators of a rule are framed when each operand is. -/
theorem framed_joined (hoperand : operand.Framed ts) (r : Rule) :
    (joined ts r operand).Framed ts := by
  intro p hcursor hnesting
  have hfirst := hoperand p hcursor hnesting
  refine hfirst.andThen fun e he => ?_
  exact frame_sequence hoperand r _ e hfirst.frame.cursor_le_length
    (hfirst.frame.nesting_le hnesting)

/-- An operand and its factorial signs are framed when the operand is. -/
theorem framed_signed (hoperand : operand.Framed ts) : (signed ts operand).Framed ts := by
  intro p hcursor hnesting
  have hfirst := hoperand p hcursor hnesting
  exact hfirst.andThen fun e he => frame_signs _ e hfirst.frame.cursor_le_length

/-- All rules are framed when what stands in parentheses is. -/
theorem framed_ruleWith {nested : Procedure} (hnested : nested.Framed ts) (r : Rule) :
    (ruleWith ts nested r).Framed ts :=
  ruleWith_induction (motive := fun _ procedure => procedure.Framed ts) (framed_primary hnested)
    (fun r _ _ _ hoperand => framed_joined hoperand r) (fun _ hoperand => framed_signed hoperand) r

/-- The counter is raised only below the limit, and it is lowered again however the expression in
the parentheses ends. -/
theorem framed_nested (levels : Nat) : (nested ts levels).Framed ts := by
  induction levels with
  | zero =>
    intro p hcursor hnesting
    exact .of_invalid (.refl hcursor)
  | succ levels ih =>
    intro p hcursor hnesting
    unfold nested
    split
    · exact .of_invalid (.refl hcursor)
    · next hlimit =>
      have henter : p.enter.nesting ≤ nestingLimit := Nat.lt_of_le_of_ne hnesting hlimit
      obtain ⟨hframe, hprogress⟩ := framed_ruleWith ih .expression p.enter hcursor henter
      have hdeepest : p.enter.deepest ≤ max p.deepest nestingLimit :=
        Nat.max_le.2 ⟨Nat.le_max_left _ _, Nat.le_trans henter (Nat.le_max_right _ _)⟩
      refine ⟨⟨hframe.cursor_le, hframe.cursor_le_length, ?_, ?_, hframe.steps_eq⟩, hprogress⟩
      · exact congrArg (· - 1) hframe.nesting_eq
      · exact Nat.le_trans hframe.deepest_le (Nat.max_le.2 ⟨hdeepest, Nat.le_max_right _ _⟩)

end Procedure

/-- The procedure of every rule is framed. -/
theorem Rule.framed_procedure (ts : List Token) (r : Rule) : (r.procedure ts).Framed ts :=
  Procedure.framed_ruleWith (Procedure.framed_nested nestingLimit) r

end InfixArith
