import InfixArith.Proofs.Rules.Agreement
import InfixArith.Proofs.Rules.Locality

/-!
# What a caller may rely on

The rules are the parser of the library: a text is parsed by the first rule from the first token on,
and no token may be left (`parse_eq_procedure`); on the way they log the steps of the derivation
(`journal_procedure`).  What a rule does to the parser that it is given, how it replies, and which
other parsers it replies to in the same way is collected in `Rule.procedure_contract`.
-/

namespace InfixArith

/-- A parser before the first token, with a log. -/
def Parser.start (log : Log) : Parser :=
  ⟨0, 0, 0, [], log⟩

/-- The tokens are parsed by the rule of expressions, which has to take all of them. -/
theorem parse_eq_procedure (log : Log) (ts : List Token) :
    parse ts =
      ⟨(Rule.expression.procedure ts (.start log)).parser.steps,
        if (Rule.expression.procedure ts (.start log)).verdict.isValid = true ∧
            (Rule.expression.procedure ts (.start log)).parser.cursor < ts.length then
          .invalid .trailingTokens
        else (Rule.expression.procedure ts (.start log)).verdict⟩ := by
  obtain ⟨hverdict, hsteps, hrest⟩ :=
    Rule.expression.run_eq_procedure ts (.start log) (Nat.zero_le _) (Nat.zero_le _)
  have hrun : run .expression (Parser.start log).nesting .start (Parser.start log).steps.reverse
      (ts.drop (Parser.start log).cursor) = run .expression 0 .start [] ts := rfl
  rw [hrun] at hverdict hsteps hrest
  rw [parse_eq_run, hsteps, Derivation.mk.injEq]
  refine ⟨rfl, ?_⟩
  cases hx : (Rule.expression.procedure ts (.start log)).verdict with
  | invalid error =>
    rw [hx] at hverdict
    rw [if_neg (fun h => nomatch h.1), Outcome.whole, hverdict]
  | valid e =>
    rw [hx] at hverdict hrest
    rw [Outcome.whole, hverdict, hrest rfl]
    by_cases hlt : (Rule.expression.procedure ts (.start log)).parser.cursor < ts.length
    · rw [if_pos ⟨rfl, hlt⟩, List.drop_eq_getElem_cons hlt]
    · rw [if_neg (fun h => hlt h.2), List.drop_eq_nil_of_le (Nat.not_lt.1 hlt)]

/-- The rules log the steps of the derivation. -/
theorem journal_procedure (log : Log) (ts : List Token) :
    (Rule.expression.procedure ts (.start log)).parser.journal =
      log.addSteps (parse ts).taken := by
  have hframed := Rule.expression.framed_procedure ts (.start log) (Nat.zero_le _) (Nat.zero_le _)
  obtain ⟨steps, hsteps, hjournal⟩ := hframed.frame.steps_eq
  rw [parse_eq_procedure log]
  exact hjournal.trans (congrArg log.addSteps hsteps.symm)

variable {ts us : List Token} {r : Rule} {p q : Parser} {e : Expr}

/-- A rule that has replied with an expression replies with it wherever the tokens that it has seen
stand, with the same steps. -/
theorem Rule.exists_procedure_eq_valid (hcursor : p.cursor ≤ ts.length)
    (hnesting : p.nesting ≤ nestingLimit) (h : r.procedure ts p = ⟨.valid e, q⟩) (p' : Parser)
    (hagree : AgreeOn ts us p.cursor q.cursor) (hcursor' : p'.cursor = p.cursor)
    (hnesting' : p'.nesting ≤ p.nesting) :
    ∃ steps q', q.steps = p.steps ++ steps ∧ r.procedure us p' = ⟨.valid e, q'⟩ ∧
      q'.cursor = q.cursor ∧ q'.nesting = p'.nesting ∧ q'.steps = p'.steps ++ steps := by
  have hframed := r.framed_procedure ts p hcursor hnesting
  have hmirrors := r.mirrors_procedure ts us p p' hcursor hnesting ⟨hcursor', hnesting'⟩
  rw [h] at hframed hmirrors
  obtain ⟨hverdict, ⟨hend, -⟩, steps, hsteps, hsteps'⟩ := hmirrors rfl hagree
  -- The first token of the expression stands in both lists, so the second run starts within them.
  have hlt : p.cursor < ts.length :=
    Nat.lt_of_lt_of_le (hframed.cursor_lt rfl) hframed.frame.cursor_le_length
  have hfirst : us[p.cursor]? = ts[p.cursor]? :=
    hagree p.cursor (Nat.le_refl _) hframed.frame.cursor_le
  have hwithin : p'.cursor < us.length := by
    obtain ⟨hlt', -⟩ := List.getElem?_eq_some_iff.1 (hfirst.trans (List.getElem?_eq_getElem hlt))
    rw [hcursor']
    exact hlt'
  have hframe := (r.framed_procedure us p' (Nat.le_of_lt hwithin)
    (Nat.le_trans hnesting' hnesting)).frame
  generalize r.procedure us p' = x at *
  obtain ⟨v, q'⟩ := x
  obtain rfl : v = .valid e := hverdict
  exact ⟨steps, q', hsteps, rfl, hend, hframe.nesting_eq, hsteps'⟩

/-- Whatever a rule replies, it has read some of the tokens that are left, and one at least when it
replies with an expression; it leaves as many parentheses open as before and has kept the limit, and
it has only added steps.  With an expression it replies to every parser that sees the same tokens
up to the one that ends the expression, and it adds the same steps there.  The verdict and the
steps are those of the pass over the tokens, which stops at the same token after an expression. -/
theorem Rule.procedure_contract (ts : List Token) (r : Rule) (p : Parser)
    (hcursor : p.cursor ≤ ts.length) (hnesting : p.nesting ≤ 128) :
    (p.cursor ≤ (r.procedure ts p).parser.cursor ∧
      (r.procedure ts p).parser.cursor ≤ ts.length ∧
      ((r.procedure ts p).verdict.isValid = true →
        p.cursor < (r.procedure ts p).parser.cursor)) ∧
    ((r.procedure ts p).parser.nesting = p.nesting ∧
      (p.deepest ≤ 128 → (r.procedure ts p).parser.deepest ≤ 128)) ∧
    p.steps <+: (r.procedure ts p).parser.steps ∧
    (∀ e q, r.procedure ts p = ⟨.valid e, q⟩ →
      ∀ (us : List Token) (p' : Parser), AgreeOn ts us p.cursor q.cursor →
        p'.cursor = p.cursor → p'.nesting ≤ p.nesting →
        ∃ steps q', q.steps = p.steps ++ steps ∧ r.procedure us p' = ⟨.valid e, q'⟩ ∧
          q'.cursor = q.cursor ∧ q'.nesting = p'.nesting ∧ q'.steps = p'.steps ++ steps) ∧
    (run r p.nesting .start p.steps.reverse (ts.drop p.cursor)).verdict =
      (r.procedure ts p).verdict ∧
    (run r p.nesting .start p.steps.reverse (ts.drop p.cursor)).steps =
      (r.procedure ts p).parser.steps ∧
    ((r.procedure ts p).verdict.isValid = true →
      (run r p.nesting .start p.steps.reverse (ts.drop p.cursor)).rest =
        ts.drop (r.procedure ts p).parser.cursor) := by
  obtain ⟨hframe, hprogress⟩ := r.framed_procedure ts p hcursor hnesting
  have hdeepest : p.deepest ≤ 128 → (r.procedure ts p).parser.deepest ≤ 128 := by
    intro hdeepest
    exact Nat.le_trans hframe.deepest_le (Nat.max_le.2 ⟨hdeepest, Nat.le_refl _⟩)
  refine ⟨⟨hframe.cursor_le, hframe.cursor_le_length, hprogress⟩, ⟨hframe.nesting_eq, hdeepest⟩,
    hframe.steps_le, ?_, r.run_eq_procedure ts p hcursor hnesting⟩
  intro e q h us p' hagree hcursor' hnesting'
  exact exists_procedure_eq_valid hcursor hnesting h p' hagree hcursor' hnesting'

/-- The tokens of `7(1)+2`. -/
def groupTokens : List Token :=
  [.number "7", .opening, .number "1", .closing, .operator '+', .number "2"]

/-- The tokens of `)(1)+`, which are the same from the opening parenthesis to the sign. -/
def otherGroupTokens : List Token :=
  [.closing, .opening, .number "1", .closing, .operator '+']

/-- Below 127 parentheses there is room for the group, which is read in both lists; without its
closing parenthesis it is refused, and the counter is back at 127. -/
theorem Rule.procedure_contract_group :
    Rule.term.procedure groupTokens ⟨1, 127, 127, [], .empty none⟩ =
      ⟨.valid (.literal "1"), ⟨4, 127, 128, [.opened, .literal "1", .closed], .empty none⟩⟩ ∧
    (∃ q, Rule.term.procedure otherGroupTokens ⟨1, 0, 0, [.factorial], .empty none⟩ =
        ⟨.valid (.literal "1"), q⟩ ∧
      q.cursor = 4 ∧ q.nesting = 0 ∧ q.steps = [.factorial, .opened, .literal "1", .closed]) ∧
    ((Rule.term.procedure (groupTokens.take 3) ⟨1, 127, 127, [], .empty none⟩).verdict =
        .invalid .unmatchedParenthesis ∧
      (Rule.term.procedure (groupTokens.take 3) ⟨1, 127, 127, [], .empty none⟩).parser.nesting =
        127) := by
  have hreply : Rule.term.procedure groupTokens ⟨1, 127, 127, [], .empty none⟩ =
      ⟨.valid (.literal "1"), ⟨4, 127, 128, [.opened, .literal "1", .closed], .empty none⟩⟩ := by
    rfl
  obtain ⟨-, -, -, hlocal, -⟩ := Rule.procedure_contract groupTokens .term
    ⟨1, 127, 127, [], .empty none⟩ (by decide) (by decide)
  obtain ⟨steps, q, hsteps, hq, hcursor, hnesting, hsteps'⟩ :=
    hlocal _ _ hreply otherGroupTokens ⟨1, 0, 0, [.factorial], .empty none⟩ (by decide) rfl
      (by decide)
  obtain rfl : [.opened, .literal "1", .closed] = steps := hsteps
  obtain ⟨-, ⟨hnesting', -⟩, -⟩ := Rule.procedure_contract (groupTokens.take 3) .term
    ⟨1, 127, 127, [], .empty none⟩ (by decide) (by decide)
  exact ⟨hreply, ⟨q, hq, hcursor, hnesting, hsteps'⟩, by rfl, hnesting'⟩

end InfixArith
