import InfixArith.Proofs.Printing.Reprint
import InfixArith.Proofs.Printing.Unparse
import InfixArith.Proofs.Steps.Replay

/-!
# The steps determine the tokens

`replayTokens` runs the steps of a derivation on a stack of token lists: a step that finds an
operand puts its token on the stack, and one that joins or closes operands writes the tokens between
or around them (`Step.actTokens`).  The steps of a phrase put its tokens on the stack
(`Phrase.replayTokens_steps`), so valid tokens are recovered from their steps, and as a step is
known by its words, from the words alone (`steps_determine_tokens`).
-/

namespace InfixArith

/-- What the step does to a stack of token lists, given with its top first; `none` when the stack
holds too few. -/
def Step.actTokens : Step → List (List Token) → Option (List (List Token))
  | literal text, st => some ([.number text] :: st)
  | joined op, us :: ts :: st => some ((ts ++ .operator op.symbol :: us) :: st)
  | factorial, ts :: st => some ((ts ++ [.factorial]) :: st)
  | closed, ts :: st => some ((.opening :: (ts ++ [.closing])) :: st)
  | completedCall f, ts :: st =>
    some ((.function f.name :: .opening :: (ts ++ [.closing])) :: st)
  | joined _, _ | factorial, [] | closed, [] | completedCall _, [] => none
  | opened, st | entered _, st | complete, st | failed _, st => some st

/-- The stack after the steps; `none` when one of them finds too few lists. -/
def replayTokens (steps : List Step) (st : List (List Token)) : Option (List (List Token)) :=
  steps.foldlM (fun st step => step.actTokens st) st

/-- All that a reader sees of a step. -/
def Step.words (step : Step) : Stage × String :=
  (step.stage, step.description)

variable {r : Rule} {t : Token} {ts : List Token} {e : Expr} {steps steps' : List Step}
  {st : List (List Token)}

/-! ### Replaying -/

/-- Without steps the stack of token lists stays as it is. -/
@[simp]
theorem replayTokens_nil : replayTokens [] st = some st :=
  rfl

/-- The first step acts on the stack before the others do. -/
@[simp]
theorem replayTokens_cons (step : Step) :
    replayTokens (step :: steps) st = (step.actTokens st).bind (replayTokens steps) :=
  List.foldlM_cons

/-- Steps that follow others act on the stack that these leave. -/
@[simp]
theorem replayTokens_append :
    replayTokens (steps ++ steps') st = (replayTokens steps st).bind (replayTokens steps') :=
  List.foldlM_append

/-- The step of an opening parenthesis leaves the stack of token lists as it is. -/
@[simp]
theorem Opener.actTokens_enterStep (o : Opener) (st : List (List Token)) :
    o.enterStep.actTokens st = some st := by
  cases o <;> rfl

/-- The step of a closing parenthesis writes the opener and the parenthesis around the tokens
between them. -/
@[simp]
theorem Opener.actTokens_leaveStep (o : Opener) (ts : List Token) (st : List (List Token)) :
    o.leaveStep.actTokens (ts :: st) = some ((o.tokens ++ (ts ++ [.closing])) :: st) := by
  cases o <;> rfl

/-- The tokens of an opener have the texts that they are read from. -/
theorem Opener.map_plain_tokens (o : Opener) : o.tokens.map Token.plain = o.tokens := by
  cases o <;> rfl

/-- The steps of a phrase put its tokens on the stack, factorial signs as they are read. -/
theorem Phrase.replayTokens_steps (p : Phrase r) (st : List (List Token)) :
    replayTokens p.steps st = some (p.tokens.map Token.plain :: st) := by
  induction p generalizing st with
  | number text => rfl
  | enclosed o p ih =>
    have hclosing : List.map Token.plain [.closing] = [.closing] := rfl
    rw [Phrase.tokens, List.map_append, List.map_append, o.map_plain_tokens, hclosing]
    simp [Phrase.steps, ih]
  | operand hr p ih => exact ih st
  | factorial text p ih =>
    rw [Phrase.tokens, List.map_append, List.map_singleton, plain_factorial]
    simp [Phrase.steps, ih, Step.actTokens]
  | binary op hop p p' ih ih' =>
    have hoperator : (Token.operator op.symbol).plain = .operator op.symbol := rfl
    rw [Phrase.tokens, List.map_append, List.map_cons, hoperator]
    simp [Phrase.steps, ih, ih', Step.actTokens]

/-- The steps of valid tokens put the tokens on the stack, factorial signs as they are read. -/
theorem replayTokens_parse (h : (parse ts).verdict = .valid e) :
    replayTokens (parse ts).steps [] = some [ts.map Token.plain] := by
  obtain ⟨p, rfl, -, hparse, -⟩ := exists_phrase_of_valid h
  rw [Derivation.steps, hparse, replayTokens_append, p.replayTokens_steps]
  rfl

/-! ### The tokens of a text -/

/-- Tokens are as they are read when their factorial signs are. -/
theorem map_plain_eq_self (h : ∀ t ∈ ts, t.kind = .factorial → t.text = "!") :
    ts.map Token.plain = ts := by
  have hplain : ∀ t ∈ ts, t.plain = id t := by
    intro t ht
    by_cases hfactorial : t.isFactorial = true
    · obtain ⟨kind, text⟩ := t
      obtain rfl : kind = .factorial := Token.isFactorial_iff.1 hfactorial
      obtain rfl : text = "!" := h _ ht rfl
      rfl
    · rw [Token.plain, if_neg hfactorial, id]
  rw [List.map_congr_left hplain, List.map_id]

/-- A factorial token that a scan can give has the text `!`. -/
theorem Token.WellFormed.text_eq_of_factorial (h : t.WellFormed) (hkind : t.kind = .factorial) :
    t.text = "!" := by
  cases h with
  | factorial => rfl
  | _ => cases hkind

/-- The steps of a valid text put its tokens on the stack. -/
theorem replayTokens_analyze {text : String} {a : Analysis} (h : analyze text = .ok a)
    (hvalid : a.derivation.isValid = true) :
    replayTokens a.derivation.steps [] = some [a.tokens] := by
  obtain ⟨ts, htokens, rfl⟩ := analyze_eq_ok_iff.1 h
  obtain ⟨e, he⟩ := Verdict.isValid_iff.1 hvalid
  have hscan : scan text = ⟨ts, none⟩ := tokenize_eq_ok_iff.1 htokens
  have hfactorial : ∀ t ∈ ts, t.kind = .factorial → t.text = "!" := by
    intro t ht
    have hmem : t ∈ (scan text).tokens := by rwa [hscan]
    exact (wellFormed_of_mem_scan hmem).text_eq_of_factorial
  rw [replayTokens_parse he, map_plain_eq_self hfactorial]

/-! ### The words of the steps -/

/-- What a step does can be read off its words. -/
theorem actTokens_eq_of_words {a b : Step} (h : a.words = b.words) : a.actTokens = b.actTokens := by
  obtain ⟨hstage, hdescription⟩ := Prod.mk.inj h
  by_cases herror : a.stage = .error
  · have hskip : ∀ step : Step, step.stage = .error → step.actTokens = some := by
      intro step hstep
      cases step with
      | failed error => rfl
      | _ => cases hstep
    rw [hskip a herror, hskip b (hstage.symm.trans herror)]
  · rw [eq_of_words hstage hdescription herror]

/-- Steps with the same words do the same to a stack of token lists. -/
theorem replayTokens_eq_of_words (h : steps.map Step.words = steps'.map Step.words)
    (st : List (List Token)) : replayTokens steps st = replayTokens steps' st := by
  induction steps generalizing steps' st with
  | nil =>
    obtain rfl : steps' = [] := List.map_eq_nil_iff.1 h.symm
    rfl
  | cons step steps ih =>
    obtain ⟨step', steps', rfl, hstep, hsteps⟩ := List.map_eq_cons_iff.1 h.symm
    have hrest : replayTokens steps = replayTokens steps' := funext (ih hsteps.symm)
    rw [replayTokens_cons, replayTokens_cons, actTokens_eq_of_words hstep, hrest]

/-- Valid texts have the same steps, word for word, if and only if they have the same tokens.  From
the steps of valid tokens these are recovered on a stack, if their factorial signs are as they are
read, and what a step does to the stack can be read off its words. -/
theorem steps_determine_tokens :
    (∀ (text text' : String) (a b : Analysis), analyze text = .ok a → analyze text' = .ok b →
      a.derivation.isValid = true → b.derivation.isValid = true →
        (a.derivation.steps.map Step.words = b.derivation.steps.map Step.words ↔
          a.tokens = b.tokens)) ∧
    (∀ ts : List Token, (parse ts).isValid = true →
      (∀ t ∈ ts, t.kind = .factorial → t.text = "!") →
        replayTokens (parse ts).steps [] = some [ts]) ∧
    ∀ a b : Step, a.words = b.words → a.actTokens = b.actTokens := by
  refine ⟨?_, ?_, fun a b => actTokens_eq_of_words⟩
  · intro text text' a b ha hb hvalid hvalid'
    constructor
    · intro hwords
      have hreplay : some [a.tokens] = some [b.tokens] := by
        rw [← replayTokens_analyze ha hvalid, ← replayTokens_analyze hb hvalid']
        exact replayTokens_eq_of_words hwords []
      exact List.singleton_inj.1 (Option.some.inj hreplay)
    · intro htokens
      obtain ⟨ts, -, rfl⟩ := analyze_eq_ok_iff.1 ha
      obtain ⟨us, -, rfl⟩ := analyze_eq_ok_iff.1 hb
      obtain rfl : ts = us := htokens
      rfl
  · intro ts hvalid hfactorial
    obtain ⟨e, he⟩ := Verdict.isValid_iff.1 hvalid
    rw [replayTokens_parse he, map_plain_eq_self hfactorial]

/-- The tokens of `2!*3`. -/
def factorialProduct : List Token :=
  [.number "2", .factorial, .operator '*', .number "3"]

/-- The tokens of `(2!*3)`. -/
def enclosedProduct : List Token :=
  [.opening, .number "2", .factorial, .operator '*', .number "3", .closing]

/-- Parentheses around a product show in its steps and are recovered from them, and a step that says
to have found a closing parenthesis writes both. -/
theorem steps_determine_tokens_product :
    (analyze "2! * 3" = .ok ⟨factorialProduct, parse factorialProduct⟩ ∧
      (parse factorialProduct).isValid = true ∧
      analyze "(2!*3)" = .ok ⟨enclosedProduct, parse enclosedProduct⟩ ∧
      (parse enclosedProduct).isValid = true ∧
      (parse factorialProduct).steps.map Step.words ≠
        (parse enclosedProduct).steps.map Step.words) ∧
    replayTokens (parse enclosedProduct).steps [] = some [enclosedProduct] ∧
    (Step.closed.words = (.rule .primary, "Found closing parenthesis, ending subexpression") ∧
      ∀ step : Step,
        step.words = (.rule .primary, "Found closing parenthesis, ending subexpression") →
          step.actTokens [[.number "1"]] = some [[.opening, .number "1", .closing]]) := by
  have htext : analyze "2! * 3" = .ok ⟨factorialProduct, parse factorialProduct⟩ := by rfl
  have htext' : analyze "(2!*3)" = .ok ⟨enclosedProduct, parse enclosedProduct⟩ := by rfl
  have hvalid : (parse factorialProduct).isValid = true := by rfl
  have hvalid' : (parse enclosedProduct).isValid = true := by rfl
  have hne : factorialProduct ≠ enclosedProduct := by decide
  have hsigns : ∀ t ∈ enclosedProduct, t.kind = .factorial → t.text = "!" := by decide
  refine ⟨⟨htext, hvalid, htext', hvalid', ?_⟩, ?_, rfl, fun step hstep => ?_⟩
  · intro hwords
    exact hne ((steps_determine_tokens.1 _ _ _ _ htext htext' hvalid hvalid').1 hwords)
  · exact steps_determine_tokens.2.1 _ hvalid' hsigns
  · have hact : step.actTokens = Step.closed.actTokens :=
      steps_determine_tokens.2.2 step .closed hstep
    rw [hact]
    rfl

end InfixArith
