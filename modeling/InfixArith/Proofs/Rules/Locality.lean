import InfixArith.Proofs.Rules.Frame

/-!
# What a rule depends on

A rule that replies with an expression has looked at no token before its start and at none behind
the one that ends it.  So from a parser at the same place of another list, which agrees with the
first one in these tokens, it replies with the same expression, stops at the same place and writes
down the same steps; neither the steps before nor fewer open parentheses change this.  The main
statement is `Rule.mirrors_procedure`, which follows two runs of a rule in step.
-/

namespace InfixArith

/-- From the one position to the other, both included, the lists have the same tokens, or both have
ended. -/
def AgreeOn (ts us : List Token) (i j : Nat) : Prop :=
  ∀ k, i ≤ k → k ≤ j → us[k]? = ts[k]?

/-- The second parser is at the same place as the first one, and not deeper. -/
structure Parser.Alongside (p p' : Parser) : Prop where
  /-- Both have read as many tokens. -/
  cursor_eq : p'.cursor = p.cursor
  /-- No more parentheses are open around the second one. -/
  nesting_le : p'.nesting ≤ p.nesting

/-- The parsers `p` and `p'` have gone on to `q` and `q'`, which are at the same place again, and
have written down the same steps. -/
structure Parser.InStep (p p' q q' : Parser) : Prop extends q.Alongside q' where
  /-- The same steps are added to those that were there before. -/
  steps_eq : ∃ steps, q.steps = p.steps ++ steps ∧ q'.steps = p'.steps ++ steps

/-- If the first reply is an expression and the tokens up to its end are the same, the second reply
is the same expression with the same steps. -/
def Reply.Mirrors (ts us : List Token) (p p' : Parser) (x x' : Reply) : Prop :=
  x.verdict.isValid = true → AgreeOn ts us p.cursor x.parser.cursor →
    x'.verdict = x.verdict ∧ p.InStep p' x.parser x'.parser

/-- The procedures reply alike from any two parsers that are alongside each other. -/
def Procedure.Mirrors (ts us : List Token) (procedure procedure' : Procedure) : Prop :=
  ∀ p p' : Parser, p.cursor ≤ ts.length → p.nesting ≤ nestingLimit → p.Alongside p' →
    (procedure p).Mirrors ts us p p' (procedure' p')

variable {ts us : List Token} {p p' q q' q₁ q₁' : Parser} {x x' : Reply} {e : Expr} {i j : Nat}
  {operand operand' : Procedure}

instance : Decidable (AgreeOn ts us i j) :=
  decidable_of_iff (∀ k < j + 1, i ≤ k → us[k]? = ts[k]?)
    ⟨fun h k hi hj => h k (Nat.lt_succ_of_le hj) hi, fun h k hj hi => h k hi (Nat.le_of_lt_succ hj)⟩

/-- Lists that agree on a range agree on every part of it. -/
theorem AgreeOn.mono {i' j' : Nat} (h : AgreeOn ts us i j) (hi : i ≤ i') (hj : j' ≤ j) :
    AgreeOn ts us i' j' :=
  fun k hk hk' => h k (Nat.le_trans hi hk) (Nat.le_trans hk' hj)

/-- Parsers alongside each other see the same token, if it is among those that agree. -/
theorem Parser.Alongside.peek_eq (h : p.Alongside p') (hagree : AgreeOn ts us p.cursor j)
    (hj : p.cursor ≤ j) : p'.peek us = p.peek ts := by
  rw [peek, peek, h.cursor_eq]
  exact hagree p.cursor (Nat.le_refl _) hj

/-! ### Two parsers in step -/

namespace Parser.InStep

/-- Parsers that are alongside each other are in step where they start. -/
theorem refl (h : p.Alongside p') : p.InStep p' p p' :=
  ⟨h, [], (List.append_nil _).symm, (List.append_nil _).symm⟩

/-- Parsers that go on in step twice have gone on in step. -/
theorem trans (h : p.InStep p' q q') (h' : q.InStep q' q₁ q₁') : p.InStep p' q₁ q₁' := by
  obtain ⟨-, steps, hq, hq'⟩ := h
  obtain ⟨halongside, steps', hq₁, hq₁'⟩ := h'
  refine ⟨halongside, steps ++ steps', ?_, ?_⟩
  · rw [hq₁, hq, List.append_assoc]
  · rw [hq₁', hq', List.append_assoc]

/-- Parsers in step stay so when both read the next token. -/
theorem advance (h : p.InStep p' q q') : p.InStep p' q.advance q'.advance :=
  ⟨⟨congrArg Nat.succ h.cursor_eq, h.nesting_le⟩, h.steps_eq⟩

/-- Parsers in step stay so when both write down the same step. -/
theorem log (h : p.InStep p' q q') (step : Step) : p.InStep p' (q.log step) (q'.log step) :=
  h.trans ⟨⟨h.cursor_eq, h.nesting_le⟩, [step], rfl, rfl⟩

end Parser.InStep

namespace Reply.Mirrors

/-- Nothing is claimed of a first reply with an error. -/
theorem of_invalid {error : ParseError} (q : Parser) :
    Reply.Mirrors ts us p p' ⟨.invalid error, q⟩ x' :=
  nofun

/-- Equal verdicts of parsers in step mirror each other. -/
theorem of_inStep {v : Verdict} (h : p.InStep p' q q') :
    Reply.Mirrors ts us p p' ⟨v, q⟩ ⟨v, q'⟩ :=
  fun _ _ => ⟨rfl, h⟩

/-- A procedure that does not go back sees the same next token in both runs. -/
theorem of_peek (halongside : p.Alongside p') (hle : p.cursor ≤ x.parser.cursor)
    (h : p'.peek us = p.peek ts → x.Mirrors ts us p p' x') : x.Mirrors ts us p p' x' :=
  fun hvalid hagree => h (halongside.peek_eq hagree hle) hvalid hagree

/-- What both runs have done before a procedure counts for it. -/
theorem prepend (h : p.InStep p' q q') (hle : p.cursor ≤ q.cursor)
    (hx : x.Mirrors ts us q q' x') : x.Mirrors ts us p p' x' := by
  intro hvalid hagree
  obtain ⟨hverdict, hstep⟩ := hx hvalid (hagree.mono hle (Nat.le_refl _))
  exact ⟨hverdict, h.trans hstep⟩

/-- Replies that are gone on with mirror each other when the first parts do and the rests do. -/
theorem andThen {next next' : Expr → Procedure} (hx : x.Mirrors ts us p p' x')
    (hfirst : p.cursor ≤ x.parser.cursor)
    (hle : ∀ e, x.verdict = .valid e → x.parser.cursor ≤ (next e x.parser).parser.cursor)
    (hnext : ∀ e, x.verdict = .valid e → x.parser.Alongside x'.parser →
      (next e x.parser).Mirrors ts us x.parser x'.parser (next' e x'.parser)) :
    (x.andThen next).Mirrors ts us p p' (x'.andThen next') := by
  cases hverdict : x.verdict with
  | valid e =>
    rw [Reply.andThen_of_valid hverdict]
    intro hvalid hagree
    -- The tokens up to the end of the whole are those of the first part and those of the second.
    obtain ⟨hverdict', hstep⟩ :=
      hx (by rw [hverdict]; rfl) (hagree.mono (Nat.le_refl _) (hle e hverdict))
    rw [Reply.andThen_of_valid (hverdict'.trans hverdict)]
    exact (hnext e hverdict hstep.toAlongside).prepend hstep hfirst hvalid hagree
  | invalid error =>
    intro hvalid
    rw [Reply.andThen_of_invalid hverdict, hverdict] at hvalid
    cases hvalid

end Reply.Mirrors

/-! ### The parts of the procedures -/

namespace Procedure

/-- What follows the parenthesis of an opener mirrors itself when the expression in it does. -/
theorem mirrors_enclosed {nested nested' : Procedure} (hframed : nested.Framed ts)
    (hnested : nested.Mirrors ts us nested') (o : Opener) :
    (enclosed ts nested o).Mirrors ts us (enclosed us nested' o) := by
  intro p p' hcursor hnesting halongside
  have hlog : p.InStep p' (p.log o.enterStep) (p'.log o.enterStep) :=
    (Parser.InStep.refl halongside).log o.enterStep
  have hinner := hnested (p.log o.enterStep) (p'.log o.enterStep) hcursor hnesting hlog.toAlongside
  have hframe := hframed (p.log o.enterStep) hcursor hnesting
  refine (hinner.prepend hlog (Nat.le_refl _)).andThen hframe.frame.cursor_le ?_ ?_
  · intro e he
    split
    · exact Nat.le_succ _
    · exact Nat.le_refl _
  · intro e he hafter
    split
    · next hclosing =>
      refine .of_peek hafter (Nat.le_succ _) fun hpeek => ?_
      rw [if_pos (hpeek.trans hclosing)]
      exact .of_inStep ((Parser.InStep.refl hafter).advance.log o.leaveStep)
    · exact .of_invalid _

/-- A primary mirrors itself when what stands in parentheses does. -/
theorem mirrors_primary {nested nested' : Procedure} (hframed : nested.Framed ts)
    (hnested : nested.Mirrors ts us nested') :
    (primary ts nested).Mirrors ts us (primary us nested') := by
  intro p p' hcursor hnesting halongside
  refine .of_peek halongside (framed_primary hframed p hcursor hnesting).frame.cursor_le
    fun hpeek => ?_
  have hadvance : p.InStep p' p.advance p'.advance := (Parser.InStep.refl halongside).advance
  unfold primary
  rw [hpeek]
  split
  · exact .of_invalid _
  · next t ht =>
    have hwithin : p.advance.cursor ≤ ts.length := Parser.lt_of_peek ht
    split
    · exact .of_inStep (hadvance.log _)
    · exact .prepend hadvance (Nat.le_succ _)
        (mirrors_enclosed hframed hnested .group _ _ hwithin hnesting hadvance.toAlongside)
    · next f _ =>
      split
      · next hopening =>
        have hwithin' : p.advance.advance.cursor ≤ ts.length := Parser.lt_of_peek hopening
        have hopened := hadvance.advance
        have hframe := framed_enclosed hframed (.call f) _ hwithin' hnesting
        have hle := Nat.le_trans (Nat.le_succ p.advance.cursor) hframe.frame.cursor_le
        refine .prepend hadvance (Nat.le_succ _)
          (.of_peek hadvance.toAlongside hle fun hpeek' => ?_)
        rw [if_pos (hpeek'.trans hopening)]
        exact .prepend ((Parser.InStep.refl hadvance.toAlongside).advance) (Nat.le_succ _)
          (mirrors_enclosed hframed hnested (.call f) _ _ hwithin' hnesting hopened.toAlongside)
      · exact .of_invalid _
    · exact .of_invalid _

/-- Both loops have a round for each token that is left, so neither ends before the other one. -/
theorem mirrors_sequence (hframed : operand.Framed ts) (hoperand : operand.Mirrors ts us operand')
    (r : Rule) {rounds rounds' : Nat} (hcursor : p.cursor ≤ ts.length)
    (hnesting : p.nesting ≤ nestingLimit) (halongside : p.Alongside p')
    (hrounds : ts.length - p.cursor ≤ rounds) (hrounds' : us.length - p'.cursor ≤ rounds') :
    (sequence ts r operand rounds e p).Mirrors ts us p p'
      (sequence us r operand' rounds' e p') := by
  induction hleft : ts.length - p.cursor using Nat.strongRecOn
    generalizing p p' e rounds rounds' with
  | ind left ih =>
    refine .of_peek halongside (frame_sequence hframed r rounds e hcursor hnesting).cursor_le
      fun hpeek => ?_
    have hoperator : p'.operator? us r = p.operator? ts r := by
      rw [Parser.operator?, Parser.operator?, hpeek]
    rw [sequence_eq hrounds, sequence_eq hrounds', hoperator]
    split
    · exact .of_inStep (.refl halongside)
    · next op hop =>
      obtain ⟨hsign, -⟩ := Parser.operator?_eq_some_iff.1 hop
      have hwithin : p.advance.cursor ≤ ts.length := Parser.lt_of_peek hsign
      have hadvance : p.InStep p' p.advance p'.advance := (Parser.InStep.refl halongside).advance
      have hright := hframed p.advance hwithin hnesting
      have hwithin' := hright.frame.cursor_le_length
      have hnesting' := hright.frame.nesting_le hnesting
      refine .prepend hadvance (Nat.le_succ _)
        ((hoperand _ _ hwithin hnesting hadvance.toAlongside).andThen hright.frame.cursor_le ?_ ?_)
      · intro e' he'
        exact (frame_sequence (p := (operand p.advance).parser.log _) hframed r _ _ hwithin'
          hnesting').cursor_le
      · intro e' he' hafter
        have hlog := (Parser.InStep.refl hafter).log (.joined op)
        have hlt : p.cursor < (operand p.advance).parser.cursor := hright.frame.cursor_le
        have hlt' : p'.cursor < (operand' p'.advance).parser.cursor := by
          rw [halongside.cursor_eq, hafter.cursor_eq]
          exact hlt
        have hsmaller : ts.length - (operand p.advance).parser.cursor < left := by omega
        have hleft₁ : ts.length - (operand p.advance).parser.cursor ≤ rounds - 1 := by omega
        have hleft₁' : us.length - (operand' p'.advance).parser.cursor ≤ rounds' - 1 := by omega
        exact .prepend hlog (Nat.le_refl _)
          (ih _ hsmaller hwithin' hnesting' hlog.toAlongside hleft₁ hleft₁' rfl)

/-- The rounds over factorial signs mirror each other when both lists leave rounds enough. -/
theorem mirrors_signs {rounds rounds' : Nat} (hcursor : p.cursor ≤ ts.length)
    (halongside : p.Alongside p') (hrounds : ts.length - p.cursor ≤ rounds)
    (hrounds' : us.length - p'.cursor ≤ rounds') :
    (signs ts rounds e p).Mirrors ts us p p' (signs us rounds' e p') := by
  induction hleft : ts.length - p.cursor using Nat.strongRecOn
    generalizing p p' e rounds rounds' with
  | ind left ih =>
    refine .of_peek halongside (frame_signs rounds e hcursor).cursor_le fun hpeek => ?_
    rw [signs_eq hrounds, signs_eq hrounds', hpeek]
    split
    · next hsign =>
      obtain ⟨t, ht, -⟩ := (Option.any_eq_true _ _).1 hsign
      have hwithin : p.cursor < ts.length := Parser.lt_of_peek ht
      have hcursor' : p'.cursor = p.cursor := halongside.cursor_eq
      have hlog := (Parser.InStep.refl halongside).advance.log .factorial
      have hsmaller : ts.length - (p.cursor + 1) < left := by omega
      have hleft₁ : ts.length - (p.cursor + 1) ≤ rounds - 1 := by omega
      have hleft₁' : us.length - (p'.cursor + 1) ≤ rounds' - 1 := by omega
      exact .prepend hlog (Nat.le_succ _)
        (ih _ hsmaller hwithin hlog.toAlongside hleft₁ hleft₁' rfl)
    · exact .of_inStep (.refl halongside)

/-- Operands joined by the operators of a rule mirror each other when each operand does. -/
theorem mirrors_joined (hframed : operand.Framed ts) (hoperand : operand.Mirrors ts us operand')
    (r : Rule) : (joined ts r operand).Mirrors ts us (joined us r operand') := by
  intro p p' hcursor hnesting halongside
  have hfirst := hframed p hcursor hnesting
  have hwithin := hfirst.frame.cursor_le_length
  have hnesting' := hfirst.frame.nesting_le hnesting
  refine (hoperand p p' hcursor hnesting halongside).andThen hfirst.frame.cursor_le ?_ ?_
  · intro e he
    exact (frame_sequence hframed r _ e hwithin hnesting').cursor_le
  · intro e he hafter
    exact mirrors_sequence hframed hoperand r hwithin hnesting' hafter (Nat.le_refl _)
      (Nat.le_refl _)

/-- An operand and its factorial signs mirror themselves when the operand does. -/
theorem mirrors_signed (hframed : operand.Framed ts) (hoperand : operand.Mirrors ts us operand') :
    (signed ts operand).Mirrors ts us (signed us operand') := by
  intro p p' hcursor hnesting halongside
  have hfirst := hframed p hcursor hnesting
  have hwithin := hfirst.frame.cursor_le_length
  refine (hoperand p p' hcursor hnesting halongside).andThen hfirst.frame.cursor_le ?_ ?_
  · intro e he
    exact (frame_signs _ e hwithin).cursor_le
  · intro e he hafter
    exact mirrors_signs hwithin hafter (Nat.le_refl _) (Nat.le_refl _)

/-- All rules mirror themselves when what stands in parentheses does. -/
theorem mirrors_ruleWith {nested nested' : Procedure} (hframed : nested.Framed ts)
    (hnested : nested.Mirrors ts us nested') (r : Rule) :
    (ruleWith ts nested r).Mirrors ts us (ruleWith us nested' r) := by
  have hprimary := mirrors_primary hframed hnested
  have hpower := mirrors_joined (framed_ruleWith hframed .primary) hprimary .power
  have hfactor := mirrors_signed (framed_ruleWith hframed .power) hpower
  have hterm := mirrors_joined (framed_ruleWith hframed .factor) hfactor .term
  cases r with
  | primary => exact hprimary
  | power => exact hpower
  | factor => exact hfactor
  | term => exact hterm
  | expression => exact mirrors_joined (framed_ruleWith hframed .term) hterm .expression

/-- Where the first run has room for one more parenthesis, the second one has room, too. -/
theorem mirrors_nested (levels : Nat) : (nested ts levels).Mirrors ts us (nested us levels) := by
  induction levels with
  | zero =>
    intro p p' hcursor hnesting halongside
    exact .of_invalid _
  | succ levels ih =>
    intro p p' hcursor hnesting halongside
    unfold nested
    split
    · exact .of_invalid _
    · next hlimit =>
      have henter : p.enter.nesting ≤ nestingLimit := Nat.lt_of_le_of_ne hnesting hlimit
      have hnesting' : p'.nesting ≤ p.nesting := halongside.nesting_le
      have hlimit' : p'.nesting ≠ nestingLimit := by omega
      have hentered : p.enter.Alongside p'.enter :=
        ⟨halongside.cursor_eq, Nat.succ_le_succ halongside.nesting_le⟩
      have hinner := mirrors_ruleWith (framed_nested levels) ih .expression p.enter p'.enter hcursor
        henter hentered
      rw [if_neg hlimit']
      intro hvalid hagree
      obtain ⟨hverdict, hstep⟩ := hinner hvalid hagree
      exact ⟨hverdict, ⟨hstep.cursor_eq, Nat.sub_le_sub_right hstep.nesting_le 1⟩, hstep.steps_eq⟩

end Procedure

/-- Two runs of a rule reply alike as long as they see the same tokens. -/
theorem Rule.mirrors_procedure (ts us : List Token) (r : Rule) :
    (r.procedure ts).Mirrors ts us (r.procedure us) :=
  Procedure.mirrors_ruleWith (Procedure.framed_nested nestingLimit)
    (Procedure.mirrors_nested nestingLimit) r

end InfixArith
