import InfixArith.Proofs.Parsing.Phrase

/-!
# Phrases are read

A phrase of a rule continues every state that waits for one (`State.Awaits`), and what it leaves
behind is the same state with the phrase as its operand, or with parts of it still waiting to be
joined (`State.After`).  The steps up to there are those of the phrase without the ones that join
these parts (`State.StepsAfter`).  This is `Phrase.exists_shifts`; it does not depend on how many
parentheses are open.
-/

namespace InfixArith

namespace State

/-- The state waits for a phrase of the rule: nothing waits there that the phrase would not stop
at. -/
def Awaits (s : State) : Rule → Prop
  | .primary => ∃ power, s.position = .operand power
  | .power | .factor => s.position = .operand none
  | .term => s.position = .operand none ∧ s.product = none
  | .expression => s.position = .operand none ∧ s.product = none ∧ s.sum = none

/-- The state `s'` knows what `s` knows and a phrase of the rule with the expression `e`. -/
def After (s : State) (e : Expr) (s' : State) : Rule → Prop
  | .primary =>
    ∃ power, s.position = .operand power ∧ s' = { s with position := afterPrimary power e }
  | .power => s' = { s with position := .operator e true }
  | .factor => ∃ powers, s' = { s with position := .operator e powers }
  | .term => ∃ product e' powers, product.join e' = e ∧
      s' = { s with product := product, position := .operator e' powers }
  | .expression => ∃ sum product e' powers, sum.join (product.join e') = e ∧
      s' = ⟨s.frames, sum, product, .operator e' powers⟩

/-- A phrase with these steps has written down the steps `taken` when it has led from `s` to `s'`.
Those that join what still waits in `s'` are missing, and a primary has been joined to what waited
for it in `s`. -/
def StepsAfter (s : State) (steps taken : List Step) (s' : State) : Rule → Prop
  | .primary => ∃ power, s.position = .operand power ∧ taken = steps ++ power.steps
  | .power | .factor => taken = steps
  | .term => taken ++ s'.product.steps = steps
  | .expression => taken ++ s'.totalSteps = steps

/-- Which state waits for a phrase also waits for the first part of it. -/
theorem Awaits.operand {s : State} {r : Rule} (hr : r ≠ .primary) (h : s.Awaits r) :
    s.Awaits r.operand := by
  cases r with
  | expression => exact ⟨h.1, h.2.1⟩
  | term => exact h.1
  | factor => exact h
  | power => exact ⟨none, h⟩
  | primary => exact absurd rfl hr

/-- A sequence of one phrase is read as the phrase is. -/
theorem After.of_operand {s s' : State} {e : Expr} {r : Rule} (hr : r ≠ .primary)
    (h : s.Awaits r) (h' : s.After e s' r.operand) : s.After e s' r := by
  cases r with
  | expression =>
    obtain ⟨product, e', powers, hjoin, rfl⟩ := h'
    exact ⟨s.sum, product, e', powers, by rw [h.2.2, hjoin]; rfl, rfl⟩
  | term =>
    obtain ⟨powers, rfl⟩ := h'
    exact ⟨s.product, e, powers, by rw [h.2]; rfl, rfl⟩
  | factor => exact ⟨true, h'⟩
  | power =>
    obtain ⟨power, hpower, rfl⟩ := h'
    obtain rfl : power = none := Position.operand.inj (hpower.symm.trans h)
    rfl
  | primary => exact absurd rfl hr

/-- A sequence of one phrase has the steps of the phrase. -/
theorem StepsAfter.of_operand {s s' : State} {e : Expr} {steps taken : List Step} {r : Rule}
    (hr : r ≠ .primary) (h : s.Awaits r) (hafter : s.After e s' r.operand)
    (h' : s.StepsAfter steps taken s' r.operand) : s.StepsAfter steps taken s' r := by
  cases r with
  | expression =>
    obtain ⟨product, e', powers, -, rfl⟩ := hafter
    have htaken : taken ++ product.steps = steps := h'
    have hsum : product.steps ++ s.sum.steps = product.steps := by
      rw [h.2.2]
      exact List.append_nil _
    rw [StepsAfter, totalSteps, hsum, htaken]
  | term =>
    obtain ⟨powers, rfl⟩ := hafter
    have htaken : taken = steps := h'
    rw [StepsAfter, h.2, htaken]
    exact List.append_nil steps
  | factor => exact h'
  | power =>
    obtain ⟨power, hpower, htaken⟩ := h'
    obtain rfl : power = none := Position.operand.inj (hpower.symm.trans h)
    exact htaken.trans (List.append_nil steps)
  | primary => exact absurd rfl hr

end State

variable {s s' s'' : State} {r : Rule} {ts us : List Token} {e e' : Expr}
  {steps steps' taken : List Step}

/-- Where an operand is awaited, the tokens of an opener lead into the level that it opens. -/
theorem Opener.shifts_tokens (o : Opener) {fs : List Frame} {sum : Pending .expression}
    {product : Pending .term} {power : Pending .power} :
    Shifts .expression ⟨fs, sum, product, .operand power⟩ o.tokens [o.enterStep]
      ⟨⟨o, sum, product, power⟩ :: fs, none, none, .operand none⟩ := by
  cases o with
  | group => exact .single .group
  | call f => exact .cons (.name f) (.single .call)

/-- An operator of a rule after a phrase of it leads to a state that waits for the next phrase.  By
then the steps of the first phrase are all taken, and the next phrase is joined to the first. -/
theorem exists_shift_binary (asked : Rule) (op : BinaryOp) (hop : op.rule = r)
    (hasked : (s.ruleWithin asked).admits r) (hs : s.Awaits r) (h : s.After e s' r)
    (hsteps : s.StepsAfter steps taken s' r) :
    ∃ between s'', Shift asked s' (.operator op.symbol) between s'' ∧
      (s''.frames = s.frames ∧ s''.Awaits r.operand ∧ taken ++ between = steps) ∧
      ∀ e' s₁ steps' taken', s''.After e' s₁ r.operand →
        s''.StepsAfter steps' taken' s₁ r.operand →
          s.After (.binary op e e') s₁ r ∧
            s.StepsAfter (steps ++ (steps' ++ [.joined op])) (taken ++ (between ++ taken')) s₁
              r := by
  cases r with
  | expression =>
    obtain ⟨sum, product, e₁, powers, rfl, rfl⟩ := h
    have htaken : taken ++ (product.steps ++ sum.steps) = steps := hsteps
    refine ⟨_, _, .sum op hop hasked, ⟨rfl, ⟨rfl, rfl⟩, htaken⟩, ?_⟩
    rintro e' s₁ steps' taken' ⟨product', e₂, powers', rfl, rfl⟩ htaken'
    have hright : taken' ++ product'.steps = steps' := htaken'
    refine ⟨⟨_, product', e₂, powers', rfl, rfl⟩, ?_⟩
    rw [← htaken, ← hright]
    simp [State.StepsAfter, State.totalSteps, Pending.steps]
  | term =>
    obtain ⟨product, e₁, powers, rfl, rfl⟩ := h
    have htaken : taken ++ product.steps = steps := hsteps
    refine ⟨_, _, .product op hop hasked, ⟨rfl, rfl, htaken⟩, ?_⟩
    rintro e' s₁ steps' taken' ⟨powers', rfl⟩ htaken'
    obtain rfl : taken' = steps' := htaken'
    refine ⟨⟨_, e', powers', rfl, rfl⟩, ?_⟩
    rw [← htaken]
    simp [State.StepsAfter, Pending.steps]
  | factor => cases op <;> cases hop
  | power =>
    obtain rfl : s' = { s with position := .operator e true } := h
    obtain rfl : taken = steps := hsteps
    refine ⟨_, _, .power op hop hasked, ⟨rfl, ⟨_, rfl⟩, List.append_nil _⟩, ?_⟩
    rintro e' s₁ steps' taken' ⟨power', hpower', rfl⟩ ⟨power'', hpower'', rfl⟩
    cases hpower'
    cases hpower''
    exact ⟨rfl, rfl⟩
  | primary => cases op <;> cases hop

/-- A phrase continues every state that waits for one. -/
theorem Phrase.exists_shifts (p : Phrase r) (s : State) (hs : s.Awaits r) :
    ∃ taken s', Shifts .expression s p.tokens taken s' ∧ s.After p.expr s' r ∧
      s.StepsAfter p.steps taken s' r := by
  induction p generalizing s with
  | number text =>
    obtain ⟨fs, sum, product, position⟩ := s
    obtain ⟨power, rfl⟩ := hs
    exact ⟨_, _, .single (.number text), ⟨power, rfl, rfl⟩, power, rfl, rfl⟩
  | enclosed o p ih =>
    obtain ⟨fs, sum, product, position⟩ := s
    obtain ⟨power, rfl⟩ := hs
    obtain ⟨inner, s₁, hinner, ⟨sum₁, product₁, e₁, powers, hexpr, rfl⟩, hsteps⟩ :=
      ih ⟨⟨o, sum, product, power⟩ :: fs, none, none, .operand none⟩ ⟨rfl, rfl, rfl⟩
    have htaken : inner ++ (product₁.steps ++ sum₁.steps) = p.steps := hsteps
    have hshifts := o.shifts_tokens.append (hinner.append (.single .close))
    refine ⟨_, _, hshifts, ⟨power, rfl, ?_⟩, power, rfl, ?_⟩
    · rw [hexpr]
      rfl
    · simp [Phrase.steps, ← htaken]
  | operand hr p ih =>
    obtain ⟨taken, s', hshifts, hafter, htaken⟩ := ih s (hs.operand hr)
    exact ⟨taken, s', hshifts, hafter.of_operand hr hs, htaken.of_operand hr hs hafter⟩
  | factorial text p ih =>
    obtain ⟨taken, s', hshifts, ⟨powers, rfl⟩, htaken⟩ := ih s hs
    obtain rfl : taken = p.steps := htaken
    have hsign : Shift .expression { s with position := .operator p.expr powers } ⟨.factorial, text⟩
        [.factorial] { s with position := .operator (.factorial p.expr) false } :=
      .factorial text (by simp)
    exact ⟨_, _, hshifts.append (.single hsign), ⟨false, rfl⟩, rfl⟩
  | binary op hop p p' ih ih' =>
    -- Parts of the first phrase may still wait after it; the operator is what joins them.
    obtain ⟨taken, s₁, hshifts, hafter, htaken⟩ := ih s hs
    obtain ⟨between, s₂, hshift, ⟨-, hawaits, -⟩, hjoin⟩ :=
      exists_shift_binary .expression op hop (by simp) hs hafter htaken
    obtain ⟨taken', s₃, hshifts', hafter', htaken'⟩ := ih' s₂ hawaits
    have hall := hshifts.append (.cons hshift hshifts')
    exact ⟨_, s₃, hall, hjoin _ s₃ _ _ hafter' htaken'⟩

/-- The tokens of an expression lead from the start to a state that stops with the expression, when
all of its steps are taken. -/
theorem Phrase.exists_shifts_start (p : Phrase .expression) :
    ∃ taken s', Shifts .expression .start p.tokens taken s' ∧
      s'.finish.2 = .valid p.expr ∧ taken ++ s'.finish.1 = p.steps := by
  obtain ⟨taken, s', hshifts, ⟨sum, product, e', powers, hexpr, rfl⟩, hsteps⟩ :=
    p.exists_shifts .start ⟨rfl, rfl, rfl⟩
  refine ⟨taken, _, hshifts, ?_, hsteps⟩
  rw [← hexpr]
  rfl

/-- An expression continues the start up to a state that stops with it. -/
theorem Derives.exists_shifts_start (h : Derives .expression ts e) :
    ∃ steps s', Shifts .expression .start ts steps s' ∧ s'.finish.2 = .valid e := by
  obtain ⟨p, rfl, rfl⟩ := h.exists_phrase
  obtain ⟨taken, s', hshifts, hvalid, -⟩ := p.exists_shifts_start
  exact ⟨taken, s', hshifts, hvalid⟩

end InfixArith
