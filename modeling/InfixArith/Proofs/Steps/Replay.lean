import InfixArith.Proofs.Parsing.Characterization

/-!
# The steps build the expression

`replay` runs the steps of a derivation on a stack of expressions: each step that finds an operand
or joins operands does so at the top of the stack (`Step.act`).  After the steps of the tokens that
a state has read, the stack holds the operands that wait in the state (`State.operands`, kept by
`Shift.replay_eq`), so it never runs out of operands, and at the end of a valid list it holds the
expression alone.
-/

namespace InfixArith

/-- What the step does to a stack of expressions, given with its top first; `none` when the stack
holds too few. -/
def Step.act : Step → List Expr → Option (List Expr)
  | literal text, es => some (.literal text :: es)
  | joined op, e' :: e :: es => some (.binary op e e' :: es)
  | factorial, e :: es => some (.factorial e :: es)
  | completedCall f, e :: es => some (.call f e :: es)
  | joined _, _ | factorial, [] | completedCall _, [] => none
  | opened, es | closed, es | entered _, es | complete, es | failed _, es => some es

/-- The stack after the steps; `none` when one of them finds too few expressions. -/
def replay (steps : List Step) (es : List Expr) : Option (List Expr) :=
  steps.foldlM (fun es step => step.act es) es

variable {asked r : Rule} {s s' : State} {t : Token} {ts : List Token} {e : Expr}
  {es es' : List Expr} {steps steps' : List Step}

/-! ### Replaying -/

/-- Steps that follow others act on the stack that these leave. -/
theorem replay_append (h : replay steps es = some es') :
    replay (steps ++ steps') es = replay steps' es' := by
  rw [replay, List.foldlM_append]
  rw [replay] at h
  rw [h]
  rfl

/-- The first step acts on the stack before the others do. -/
theorem replay_of_act {step : Step} (h : step.act es = some es') :
    replay (step :: steps) es = replay steps es' := by
  rw [replay, List.foldlM_cons, h]
  rfl

/-- The left operand that waits. -/
def Pending.operands : Pending r → List Expr
  | none => []
  | some l => [l.value]

/-- The operands at the position, the last one first. -/
def Position.operands : Position → List Expr
  | .operand power => power.operands
  | .callee _ power => power.operands
  | .operator e _ => [e]

/-- The operands that wait around an open parenthesis. -/
def Frame.operands (f : Frame) : List Expr :=
  f.power.operands ++ (f.product.operands ++ f.sum.operands)

/-- All operands of the state, the last one first. -/
def State.operands (s : State) : List Expr :=
  s.position.operands ++ (s.product.operands ++ (s.sum.operands ++ s.frames.flatMap Frame.operands))

/-- The steps of a left operand that waits join it to the operand after it. -/
theorem replay_pending_steps (p : Pending r) (e : Expr) (es : List Expr) :
    replay p.steps (e :: (p.operands ++ es)) = some (p.join e :: es) := by
  cases p with
  | none => rfl
  | some l => rfl

/-- The steps of a product and a sum that wait join both to the operand after them. -/
theorem replay_totalSteps (product : Pending .term) (sum : Pending .expression) (e : Expr)
    (es : List Expr) :
    replay (product.steps ++ sum.steps) (e :: (product.operands ++ (sum.operands ++ es))) =
      some (sum.join (product.join e) :: es) := by
  rw [replay_append (replay_pending_steps product e (sum.operands ++ es))]
  exact replay_pending_steps sum _ es

/-- The step of an opening parenthesis leaves the stack as it is. -/
theorem Opener.act_enterStep (o : Opener) (es : List Expr) : o.enterStep.act es = some es := by
  cases o <;> rfl

/-- The step of a closing parenthesis does to the top of the stack what the opener does to the
expression. -/
theorem Opener.act_leaveStep (o : Opener) (e : Expr) (es : List Expr) :
    o.leaveStep.act (e :: es) = some (o.wrap e :: es) := by
  cases o <;> rfl

/-- The steps of a token turn the operands of the state before it into those of the state after
it. -/
theorem Shift.replay_eq (h : Shift asked s t steps s') :
    replay steps s.operands = some s'.operands := by
  cases h with
  | @number fs sum product power text =>
    rw [replay_of_act rfl]
    exact replay_pending_steps power (.literal text) _
  | group =>
    rw [replay_of_act (Opener.act_enterStep _ _)]
    simp [State.operands, Position.operands, Pending.operands, Frame.operands, replay]
  | name f => rfl
  | call =>
    rw [replay_of_act (Opener.act_enterStep _ _)]
    simp [State.operands, Position.operands, Pending.operands, Frame.operands, replay]
  | factorial text hasked => rfl
  | sum op hop hasked => exact replay_totalSteps _ _ _ _
  | product op hop hasked => exact replay_pending_steps _ _ _
  | power op hop hasked => rfl
  | @close f fs sum product e powers =>
    have htotal := replay_totalSteps product sum e ((f :: fs).flatMap Frame.operands)
    refine (replay_append htotal).trans ?_
    rw [replay_of_act (Opener.act_leaveStep _ _ _), List.flatMap_cons, Frame.operands,
      List.append_assoc, List.append_assoc]
    exact replay_pending_steps f.power _ _

/-- The steps of several tokens turn the operands of the state before them into those of the state
after them. -/
theorem Shifts.replay_eq (h : Shifts asked s ts steps s') :
    replay steps s.operands = some s'.operands := by
  induction h with
  | nil s => rfl
  | cons hshift _ ih => rw [replay_append hshift.replay_eq, ih]

/-! ### The end of a reading -/

/-- A state that stops after an operand leaves the steps of all that waits at its level. -/
theorem stop_fst (s : State) (e : Expr) : (s.stop e).1 = s.totalSteps := by
  obtain ⟨fs, sum, product, position⟩ := s
  cases fs <;> rfl

/-- The steps at the end of the tokens join all operands of the innermost level. -/
theorem exists_replay_finish (s : State) : ∃ es, replay s.finish.1 s.operands = some es := by
  obtain ⟨fs, sum, product, position⟩ := s
  cases position with
  | operand power => exact ⟨_, rfl⟩
  | callee f power => exact ⟨_, rfl⟩
  | operator e powers =>
    rw [State.finish, stop_fst]
    exact ⟨_, replay_totalSteps product sum e _⟩

/-- A state that stops with an expression leaves it alone on the stack. -/
theorem replay_finish (h : s.finish.2 = .valid e) : replay s.finish.1 s.operands = some [e] := by
  obtain ⟨fs, sum, product, position⟩ := s
  cases position with
  | operand power => cases h
  | callee f power => cases h
  | operator e' powers =>
    cases fs with
    | cons f fs => cases h
    | nil =>
      obtain rfl := Verdict.valid.inj h
      exact replay_totalSteps product sum e' []

/-- The last step leaves the stack alone. -/
theorem replay_verdict_step (v : Verdict) (es : List Expr) : replay [v.step] es = some es := by
  cases v <;> rfl

/-- The steps of a list of tokens never run out of operands. -/
theorem exists_replay_parse (ts : List Token) : ∃ es, replay (parse ts).steps [] = some es := by
  obtain ⟨q, steps, s, -, hshifts, hend⟩ := exists_shifts_parse ts
  have hsteps : replay steps [] = some s.operands := hshifts.replay_eq
  have htaken : ∃ es, replay (parse ts).taken [] = some es := by
    rcases hend with hend | hend
    · rw [hend, replay_append hsteps]
      exact exists_replay_finish s
    · rw [hend]
      exact ⟨_, hsteps⟩
  obtain ⟨es, hes⟩ := htaken
  exact ⟨es, by rw [Derivation.steps, replay_append hes, replay_verdict_step]⟩

/-- The steps of valid tokens leave their expression, and nothing else, on the stack. -/
theorem replay_parse_of_valid (h : (parse ts).verdict = .valid e) :
    replay (parse ts).steps [] = some [e] := by
  obtain ⟨steps, s, htakes, hs⟩ := verdict_parse_eq_valid_iff_takes.1 h
  have hsteps : replay steps [] = some s.operands := htakes.shifts.replay_eq
  have htaken : replay (parse ts).taken [] = some [e] := by
    rw [htakes.parse_eq, replay_append hsteps]
    exact replay_finish hs
  rw [Derivation.steps, replay_append htaken, replay_verdict_step]

/-! ### The last step -/

/-- The step belongs to a rule and tells no verdict. -/
def Step.OfRule (step : Step) : Prop :=
  ∃ r, step.stage = .rule r

/-- The steps of a left operand that waits tell no verdict. -/
theorem ofRule_pending_steps (p : Pending r) {step : Step} (h : step ∈ p.steps) : step.OfRule := by
  cases p with
  | none => cases h
  | some l =>
    obtain rfl := List.mem_singleton.1 h
    exact ⟨_, rfl⟩

/-- The steps of all that waits at a level tell no verdict. -/
theorem ofRule_totalSteps {step : Step} (h : step ∈ s.totalSteps) : step.OfRule := by
  rcases List.mem_append.1 h with hproduct | hsum
  · exact ofRule_pending_steps _ hproduct
  · exact ofRule_pending_steps _ hsum

/-- The steps of a token tell no verdict. -/
theorem Shift.ofRule (h : Shift asked s t steps s') {step : Step} (hstep : step ∈ steps) :
    step.OfRule := by
  cases h with
  | number text =>
    rcases List.mem_cons.1 hstep with rfl | hpower
    · exact ⟨.primary, rfl⟩
    · exact ofRule_pending_steps _ hpower
  | group =>
    obtain rfl := List.mem_singleton.1 hstep
    exact ⟨.primary, rfl⟩
  | name f => cases hstep
  | call =>
    obtain rfl := List.mem_singleton.1 hstep
    exact ⟨.primary, rfl⟩
  | factorial text hasked =>
    obtain rfl := List.mem_singleton.1 hstep
    exact ⟨.factor, rfl⟩
  | @sum fs sum product e powers =>
    exact ofRule_totalSteps (s := ⟨fs, sum, product, .operator e powers⟩) hstep
  | product op hop hasked => exact ofRule_pending_steps _ hstep
  | power op hop hasked => cases hstep
  | @close f fs sum product e powers =>
    rcases List.mem_append.1 hstep with htotal | hclose
    · exact ofRule_totalSteps (s := ⟨f :: fs, sum, product, .operator e powers⟩) htotal
    · rcases List.mem_cons.1 hclose with rfl | hpower
      · cases f.opener <;> exact ⟨.primary, rfl⟩
      · exact ofRule_pending_steps _ hpower

/-- The steps of several tokens tell no verdict. -/
theorem Shifts.ofRule (h : Shifts asked s ts steps s') {step : Step} (hstep : step ∈ steps) :
    step.OfRule := by
  induction h with
  | nil s => cases hstep
  | cons hshift _ ih =>
    rcases List.mem_append.1 hstep with hfirst | hrest
    · exact hshift.ofRule hfirst
    · exact ih hrest

/-- The steps at the end of the tokens tell no verdict. -/
theorem ofRule_finish {step : Step} (h : step ∈ s.finish.1) : step.OfRule := by
  obtain ⟨fs, sum, product, position⟩ := s
  cases position with
  | operand power => cases h
  | callee f power => cases h
  | operator e powers =>
    rw [State.finish, stop_fst] at h
    exact ofRule_totalSteps h

/-- No step but the last one tells a verdict. -/
theorem ofRule_taken_parse {step : Step} (h : step ∈ (parse ts).taken) : step.OfRule := by
  obtain ⟨q, steps, s, -, hshifts, hend⟩ := exists_shifts_parse ts
  rcases hend with hend | hend
  · rw [hend] at h
    rcases List.mem_append.1 h with hsteps | hfinish
    · exact hshifts.ofRule hsteps
    · exact ofRule_finish hfinish
  · rw [hend] at h
    exact hshifts.ofRule h

/-! ### The words of a step -/

/-- The seventh character tells the steps of the tightest rule apart. -/
def Step.mark (step : Step) : Option Char :=
  step.description.toList[6]?

/-- The step of a number is marked by the `n` of its description. -/
@[simp]
theorem mark_literal (text : String) : (Step.literal text).mark = some 'n' := by
  have hdescription : (Step.literal text).description = "Found number literal '" ++ text ++ "'" :=
    rfl
  have hlength : 6 < "Found number literal '".toList.length := by decide
  rw [Step.mark, hdescription, String.toList_append, String.toList_append, List.append_assoc,
    List.getElem?_append_left hlength]
  rfl

/-- The step that opens a group is marked by the `o` of its description. -/
@[simp]
theorem mark_opened : Step.opened.mark = some 'o' :=
  rfl

/-- The step that closes a group is marked by the `c` of its description. -/
@[simp]
theorem mark_closed : Step.closed.mark = some 'c' :=
  rfl

/-- The step that opens an argument is marked by the `f` of its description. -/
@[simp]
theorem mark_entered (f : Func) : (Step.entered f).mark = some 'f' := by
  cases f <;> rfl

/-- The step that closes an argument is marked by the `t` of its description. -/
@[simp]
theorem mark_completedCall (f : Func) : (Step.completedCall f).mark = some 't' := by
  cases f <;> rfl

/-- The description of the step of a number tells the number. -/
theorem literal_text_eq {text text' : String}
    (h : (Step.literal text).description = (Step.literal text').description) : text = text' := by
  have hwords : "Found number literal '" ++ text ++ "'" =
      "Found number literal '" ++ text' ++ "'" := h
  exact (String.append_right_inj _).1 ((String.append_left_inj _).1 hwords)

/-- Within one rule, the description of the step of an operator tells the operator. -/
theorem joined_operator_eq {op op' : BinaryOp} (hrule : op.rule = op'.rule)
    (h : (Step.joined op).description = (Step.joined op').description) : op = op' := by
  revert hrule h
  cases op <;> cases op' <;> decide

/-- The steps of operators belong neither to primaries nor to factors. -/
theorem stage_joined_ne (op : BinaryOp) :
    (Step.joined op).stage ≠ .rule .primary ∧ (Step.joined op).stage ≠ .rule .factor := by
  cases op <;> decide

/-- The stage and the words of a step tell which step it is, errors apart. -/
theorem eq_of_words {a b : Step} (hstage : a.stage = b.stage)
    (h : a.description = b.description) (herror : a.stage ≠ .error) : a = b := by
  have hmark : a.mark = b.mark := by rw [Step.mark, Step.mark, h]
  -- A joining step is told apart by its stage; within one stage the mark decides.
  cases a with
  | literal text =>
    cases b with
    | literal text' => rw [literal_text_eq h]
    | joined op => exact absurd hstage.symm (stage_joined_ne op).1
    | _ => simp [Step.stage] at hstage hmark
  | opened =>
    cases b with
    | opened => rfl
    | joined op => exact absurd hstage.symm (stage_joined_ne op).1
    | _ => simp [Step.stage] at hstage hmark
  | closed =>
    cases b with
    | closed => rfl
    | joined op => exact absurd hstage.symm (stage_joined_ne op).1
    | _ => simp [Step.stage] at hstage hmark
  | entered f =>
    cases b with
    | entered f' =>
      revert h
      cases f <;> cases f' <;> decide
    | joined op => exact absurd hstage.symm (stage_joined_ne op).1
    | _ => simp [Step.stage] at hstage hmark
  | completedCall f =>
    cases b with
    | completedCall f' =>
      revert h
      cases f <;> cases f' <;> decide
    | joined op => exact absurd hstage.symm (stage_joined_ne op).1
    | _ => simp [Step.stage] at hstage hmark
  | joined op =>
    cases b with
    | joined op' => rw [joined_operator_eq (Stage.rule.inj hstage) h]
    | factorial => exact absurd hstage (stage_joined_ne op).2
    | complete => cases hstage
    | failed error => cases hstage
    | _ => exact absurd hstage (stage_joined_ne op).1
  | factorial =>
    cases b with
    | factorial => rfl
    | joined op => exact absurd hstage.symm (stage_joined_ne op).2
    | _ => cases hstage
  | complete =>
    cases b with
    | complete => rfl
    | _ => cases hstage
  | failed error => exact absurd rfl herror

/-- A step that tells an error leaves the stack as it is. -/
theorem act_of_stage_error {a : Step} (h : a.stage = .error) : a.act es = some es := by
  cases a with
  | failed error => rfl
  | _ => cases h

/-- Steps of the same stage with the same words do the same. -/
theorem act_eq_of_words {a b : Step} (hstage : a.stage = b.stage)
    (h : a.description = b.description) : a.act = b.act := by
  by_cases herror : a.stage = .error
  · funext es
    rw [act_of_stage_error herror, act_of_stage_error (hstage.symm.trans herror)]
  · rw [eq_of_words hstage h herror]

/-! ### The steps of all tokens -/

/-- The last step tells the verdict in its stage, and the error in its words. -/
theorem stage_verdict_step (v : Verdict) :
    (v.step.stage = .complete ∨ v.step.stage = .error) ∧
      (v.step.stage = .complete ↔ v.isValid = true) ∧
      (v.isValid = false →
        ∃ error, v.error? = some error ∧ v.step.description = error.message) := by
  cases v with
  | valid e => exact ⟨.inl rfl, ⟨fun _ => rfl, fun _ => rfl⟩, nofun⟩
  | invalid error =>
    exact ⟨.inr rfl, ⟨nofun, nofun⟩, fun _ => ⟨error, rfl, rfl⟩⟩

/-- The steps of a derivation are a program in postfix order: whatever the tokens are, the program
runs without underflow, and on valid tokens it leaves exactly the expression.  The last step, and no
other, tells the verdict.  What a step does can be read off its words. -/
theorem replay_steps_parse :
    (∀ ts : List Token, ∃ es, replay (parse ts).steps [] = some es) ∧
    (∀ (ts : List Token) (e : Expr), (parse ts).verdict = .valid e →
      replay (parse ts).steps [] = some [e]) ∧
    (∀ ts : List Token, ∃ (taken : List Step) (last : Step), (parse ts).steps = taken ++ [last] ∧
      (∀ step ∈ taken, step.stage ≠ .complete ∧ step.stage ≠ .error) ∧
      (last.stage = .complete ∨ last.stage = .error) ∧
      (last.stage = .complete ↔ (parse ts).isValid = true) ∧
      ((parse ts).isValid = false →
        ∃ error, (parse ts).error? = some error ∧ last.description = error.message)) ∧
    ∀ a b : Step, a.stage = b.stage → a.description = b.description → a.act = b.act := by
  refine ⟨exists_replay_parse, fun _ _ => replay_parse_of_valid, fun ts => ?_,
    fun _ _ => act_eq_of_words⟩
  refine ⟨(parse ts).taken, (parse ts).verdict.step, rfl, ?_, stage_verdict_step _⟩
  intro step hstep
  obtain ⟨r, hstage⟩ := ofRule_taken_parse hstep
  rw [hstage]
  exact ⟨by simp, by simp⟩

/-- The steps of `cos(1*2)+3` build it, those of `1+(2` end in its error, and a step that says to
have found a `7` puts it on the stack. -/
theorem replay_steps_parse_examples :
    ((parse [.function "cos", .opening, .number "1", .operator '*', .number "2", .closing,
        .operator '+', .number "3"]).verdict =
        .valid (.binary .add (.call .cos (.binary .multiply (.literal "1") (.literal "2")))
          (.literal "3")) ∧
      replay (parse [.function "cos", .opening, .number "1", .operator '*', .number "2", .closing,
        .operator '+', .number "3"]).steps [] =
        some [.binary .add (.call .cos (.binary .multiply (.literal "1") (.literal "2")))
          (.literal "3")]) ∧
    (∃ taken last, (parse [.number "1", .operator '+', .opening, .number "2"]).steps =
      taken ++ [last] ∧ last.description = "Unmatched parenthesis") ∧
    ((Step.literal "7").stage = .rule .primary ∧
      (Step.literal "7").description = "Found number literal '7'" ∧
      ∀ step : Step, step.stage = .rule .primary →
        step.description = "Found number literal '7'" → step.act [] = some [.literal "7"]) := by
  have hwords : (Step.literal "7").description = "Found number literal '7'" := by decide
  refine ⟨?_, ?_, rfl, hwords, fun step hstage hstep => ?_⟩
  · have hparse : (parse [.function "cos", .opening, .number "1", .operator '*', .number "2",
        .closing, .operator '+', .number "3"]).verdict =
          .valid (.binary .add (.call .cos (.binary .multiply (.literal "1") (.literal "2")))
            (.literal "3")) := by
      rfl
    exact ⟨hparse, replay_steps_parse.2.1 _ _ hparse⟩
  · obtain ⟨taken, last, hsteps, -, -, -, hinvalid⟩ :=
      replay_steps_parse.2.2.1 [.number "1", .operator '+', .opening, .number "2"]
    obtain ⟨error, herror, hlast⟩ := hinvalid rfl
    obtain rfl : ParseError.unmatchedParenthesis = error := Option.some.inj herror
    exact ⟨taken, last, hsteps, hlast⟩
  · have hact : step.act = (Step.literal "7").act :=
      replay_steps_parse.2.2.2 step (.literal "7") hstage (hstep.trans hwords.symm)
    rw [hact]
    rfl

end InfixArith
