import InfixArith.CommandLine.Run
import InfixArith.Proofs.Log.Records
import InfixArith.Proofs.Parsing.OperandErrors
import InfixArith.Proofs.Steps.Replay
import InfixArith.Proofs.Tree.Drawing

/-!
# What the program prints

The report on a text is made of sections that do not depend on each other: each of them is a text of
the analysis alone, and the flags only select (`report_eq_join`).  The sections are written line by
line (`tokenSection_eq`, `stepSection_eq`), and no text inside a line breaks it, because a text can
only give tokens without line ends and a step shows no text but that of a token
(`isLine_description`).  So the numbers of lines are those of the tokens, the steps and the nodes.
Exit status, verdict and last step tell the same (`runOptions_agrees`).
-/

namespace InfixArith

/-! ### Texts without line ends -/

open Text

/-- The name of a function has no line end. -/
theorem Func.isLine_name (f : Func) : IsLine f.name := by
  cases f <;> exact isLine_ofList (by decide)

/-- The character of an operator is no line end. -/
theorem BinaryOp.isLine_symbol (op : BinaryOp) : IsLine (String.singleton op.symbol) := by
  rw [IsLine, String.toList_singleton]
  cases op <;> decide

/-- The text of a token that can be read has no line end. -/
theorem Token.WellFormed.isLine_text {t : Token} (h : t.WellFormed) : IsLine t.text := by
  cases h with
  | number hne hdigits => exact isLine_of_isDigit hdigits
  | function f => exact f.isLine_name
  | opening => exact isLine_ofList (by decide)
  | closing => exact isLine_ofList (by decide)
  | binary op => exact op.isLine_symbol
  | factorial => exact isLine_ofList (by decide)

/-- The name of a kind of tokens has no line end. -/
theorem TokenKind.isLine_label (kind : TokenKind) : IsLine kind.label := by
  cases kind <;> exact isLine_ofList (by decide)

/-- The name of a stage has no line end. -/
theorem Stage.isLine_label (stage : Stage) : IsLine stage.label := by
  cases stage with
  | rule r => cases r <;> exact isLine_ofList (by decide)
  | complete => exact isLine_ofList (by decide)
  | error => exact isLine_ofList (by decide)

/-- A token is printed without a line end when its text has none. -/
theorem Token.isLine_print {t : Token} (h : IsLine t.text) : IsLine t.print := by
  have hspace : IsLine " " := isLine_ofList (by decide)
  unfold print
  split
  · exact isLine_between hspace h hspace
  · exact h

/-- Tokens are printed as one line when their texts have no line ends. -/
theorem isLine_printAll {ts : List Token} (h : ∀ t ∈ ts, IsLine t.text) :
    IsLine (Token.printAll ts) := by
  refine isLine_join (List.forall_mem_map.2 ?_)
  intro t ht
  exact Token.isLine_print (h t ht)

/-! ### The tokens that steps show -/

/-- The token whose text the step shows, for a step that shows one. -/
def Step.shown? : Step → Option Token
  | literal text => some (.number text)
  | failed (.unexpectedToken t) => some t
  | _ => none

/-- The description of a joined operator has no line end. -/
theorem Step.isLine_joinedDescription (op : BinaryOp) : IsLine (joinedDescription op) := by
  have hjoined : IsLine
      ("Created binary expression with operator '" ++ String.singleton op.symbol ++ "'") :=
    isLine_between (isLine_ofList (by decide)) op.isLine_symbol (isLine_ofList (by decide))
  cases op with
  | exponentiate => exact isLine_ofList (by decide)
  | _ => exact hjoined

/-- Only an unexpected token could break the message of an error. -/
theorem ParseError.isLine_message {error : ParseError}
    (h : ∀ t, error = .unexpectedToken t → IsLine t.text) : IsLine error.message := by
  cases error with
  | unexpectedToken t =>
    have hkind : IsLine ("Unexpected token: " ++ t.kind.label ++ " '") :=
      isLine_between (isLine_ofList (by decide)) t.kind.isLine_label (isLine_ofList (by decide))
    exact isLine_between hkind (h t rfl) (isLine_ofList (by decide))
  | nestingTooDeep limit =>
    exact isLine_between (isLine_ofList (by decide)) (isLine_repr limit)
      (isLine_ofList (by decide))
  | unmatchedParenthesis => exact isLine_ofList (by decide)
  | functionWithoutParenthesis => exact isLine_ofList (by decide)
  | unmatchedCallParenthesis => exact isLine_ofList (by decide)
  | unexpectedEnd => exact isLine_ofList (by decide)
  | trailingTokens => exact isLine_ofList (by decide)

/-- Only the token that a step shows could break its description. -/
theorem Step.isLine_description {step : Step} (h : ∀ t ∈ step.shown?, IsLine t.text) :
    IsLine step.description := by
  cases step with
  | literal text =>
    exact isLine_between (isLine_ofList (by decide)) (h (.number text) rfl)
      (isLine_ofList (by decide))
  | opened => exact isLine_ofList (by decide)
  | closed => exact isLine_ofList (by decide)
  | entered f =>
    exact isLine_between (isLine_ofList (by decide)) f.isLine_name (isLine_ofList (by decide))
  | completedCall f =>
    exact isLine_between (isLine_ofList (by decide)) f.isLine_name (isLine_ofList (by decide))
  | joined op => exact isLine_joinedDescription op
  | factorial => exact isLine_ofList (by decide)
  | complete => exact isLine_ofList (by decide)
  | failed error =>
    refine ParseError.isLine_message ?_
    rintro t rfl
    exact h t rfl

section

variable {asked r : Rule} {s s' : State} {t : Token} {ts : List Token} {steps : List Step}
  {step : Step}

/-- The steps of a left operand that waits show no token. -/
theorem shown?_of_mem_pending (p : Pending r) (h : step ∈ p.steps) : step.shown? = none := by
  cases p with
  | none => cases h
  | some l =>
    obtain rfl := List.mem_singleton.1 h
    rfl

/-- The steps of all that waits at a level show no token. -/
theorem shown?_of_mem_totalSteps (h : step ∈ s.totalSteps) : step.shown? = none := by
  rcases List.mem_append.1 h with hproduct | hsum
  · exact shown?_of_mem_pending _ hproduct
  · exact shown?_of_mem_pending _ hsum

/-- What a token writes down shows that token or none. -/
theorem Shift.shown?_eq (h : Shift asked s t steps s') (hstep : step ∈ steps) :
    step.shown? = some t ∨ step.shown? = none := by
  cases h with
  | number text =>
    rcases List.mem_cons.1 hstep with rfl | hpower
    · exact .inl rfl
    · exact .inr (shown?_of_mem_pending _ hpower)
  | group =>
    obtain rfl := List.mem_singleton.1 hstep
    exact .inr rfl
  | name f => cases hstep
  | call =>
    obtain rfl := List.mem_singleton.1 hstep
    exact .inr rfl
  | factorial text hasked =>
    obtain rfl := List.mem_singleton.1 hstep
    exact .inr rfl
  | @sum fs sum product e powers =>
    exact .inr (shown?_of_mem_totalSteps (s := ⟨fs, sum, product, .operator e powers⟩) hstep)
  | product op hop hasked => exact .inr (shown?_of_mem_pending _ hstep)
  | power op hop hasked => cases hstep
  | @close f fs sum product e powers =>
    right
    rcases List.mem_append.1 hstep with htotal | hclose
    · exact shown?_of_mem_totalSteps (s := ⟨f :: fs, sum, product, .operator e powers⟩) htotal
    · rcases List.mem_cons.1 hclose with rfl | hpower
      · cases f.opener <;> rfl
      · exact shown?_of_mem_pending _ hpower

/-- The steps of some tokens show these tokens only. -/
theorem Shifts.mem_of_shown? (h : Shifts asked s ts steps s') (hstep : step ∈ steps)
    (ht : step.shown? = some t) : t ∈ ts := by
  induction h with
  | nil s => cases hstep
  | cons hshift _ ih =>
    rcases List.mem_append.1 hstep with hfirst | hrest
    · rcases hshift.shown?_eq hfirst with hshown | hshown
      · obtain rfl := Option.some.inj (ht.symm.trans hshown)
        exact List.mem_cons_self
      · rw [hshown] at ht
        cases ht
    · exact List.mem_cons_of_mem _ (ih hrest)

/-- The steps at the end of the tokens show no token. -/
theorem shown?_of_mem_finish (h : step ∈ s.finish.1) : step.shown? = none := by
  obtain ⟨fs, sum, product, position⟩ := s
  cases position with
  | operand power => cases h
  | callee f power => cases h
  | operator e powers =>
    rw [State.finish, stop_fst] at h
    exact shown?_of_mem_totalSteps h

/-- The steps before the verdict show tokens of the list only. -/
theorem mem_of_shown?_taken (hstep : step ∈ (parse ts).taken) (ht : step.shown? = some t) :
    t ∈ ts := by
  obtain ⟨q, steps, s, hq, hshifts, hend⟩ := exists_shifts_parse ts
  rcases hend with hend | hend
  · rw [hend] at hstep
    rcases List.mem_append.1 hstep with hsteps | hfinish
    · exact hq.subset (hshifts.mem_of_shown? hsteps ht)
    · rw [shown?_of_mem_finish hfinish] at ht
      cases ht
  · rw [hend] at hstep
    exact hq.subset (hshifts.mem_of_shown? hstep ht)

/-- The steps of a list show tokens of the list only. -/
theorem mem_of_shown? (hstep : step ∈ (parse ts).steps) (ht : step.shown? = some t) : t ∈ ts := by
  rcases List.mem_append.1 hstep with htaken | hverdict
  · exact mem_of_shown?_taken htaken ht
  · obtain rfl := List.mem_singleton.1 hverdict
    cases herror : (parse ts).verdict with
    | valid e =>
      rw [herror] at ht
      cases ht
    | invalid error =>
      rw [herror] at ht
      cases error with
      | unexpectedToken u =>
        obtain rfl := Option.some.inj ht
        obtain ⟨q, us, rfl, -, -⟩ := verdict_parse_eq_unexpectedToken_iff.1 herror
        exact List.mem_append_right q List.mem_cons_self
      | _ => cases ht

end

namespace CommandLine

/-! ### Lines of the sections -/

/-- A row of a table without its line end. -/
def tableLine (width : Nat) (number : Nat) (label text : String) : String :=
  Text.padLeft 4 (Nat.repr number) ++ "  " ++ Text.padRight width label ++ " " ++ text

/-- A row of a table is one line when its label and its text are. -/
theorem isLine_tableLine {width number : Nat} {label text : String} (hlabel : IsLine label)
    (htext : IsLine text) : IsLine (tableLine width number label text) := by
  have hnumber : IsLine (Text.padLeft 4 (Nat.repr number)) :=
    isLine_padLeft 4 (isLine_repr number)
  have hlabel' : IsLine (Text.padRight width label) := isLine_padRight width hlabel
  exact isLine_between (isLine_between hnumber (isLine_ofList (by decide)) hlabel')
    (isLine_ofList (by decide)) htext

/-- The lines of the rows of a table. -/
def tableLines {α : Type} (line : Nat → α → String) (xs : List α) : List String :=
  (xs.zipIdx 1).map fun x => line x.2 x.1

/-- A table has one line for each entry. -/
theorem length_tableLines {α : Type} (line : Nat → α → String) (xs : List α) :
    (tableLines line xs).length = xs.length := by
  rw [tableLines, List.length_map, List.length_zipIdx]

/-- One more entry adds one line, with the next number. -/
theorem tableLines_concat {α : Type} (line : Nat → α → String) (xs : List α) (x : α) :
    tableLines line (xs ++ [x]) = tableLines line xs ++ [line (1 + xs.length) x] := by
  rw [tableLines, List.zipIdx_append, List.map_append]
  rfl

/-- The rows of a table are its lines, each with its line end. -/
theorem tableRows_eq {α : Type} {row line : Nat → α → String}
    (h : ∀ number x, row number x = line number x ++ "\n") (xs : List α) :
    tableRows row xs = ofLines (tableLines line xs) := by
  rw [tableRows, ofLines, tableLines, List.map_map]
  exact congrArg String.join (List.map_congr_left fun x _ => h x.2 x.1)

/-- The lines of a table are lines when each entry gives one. -/
theorem forall_mem_tableLines {α : Type} {line : Nat → α → String} {xs : List α}
    (h : ∀ x ∈ xs, ∀ number, IsLine (line number x)) :
    ∀ l ∈ tableLines line xs, IsLine l := by
  refine List.forall_mem_map.2 fun x hx => ?_
  exact h x.1 (List.fst_mem_of_mem_zipIdx hx) x.2

/-- A row of the token table without its line end. -/
def tokenLine (number : Nat) (t : Token) : String :=
  tableLine 10 number t.kind.label t.text

/-- A row of the table of steps without its line end. -/
def stepLine (number : Nat) (s : Step) : String :=
  tableLine 18 number s.stage.label s.description

/-- The section of the tokens is the printed text, one line for each token, and an empty line. -/
theorem tokenSection_eq (a : Analysis) :
    tokenSection a =
      ofLines (Token.printAll a.tokens :: (tableLines tokenLine a.tokens ++ [""])) := by
  have hrows : tableRows tokenRow a.tokens = ofLines (tableLines tokenLine a.tokens) :=
    tableRows_eq (fun _ _ => rfl) a.tokens
  rw [tokenSection, hrows, ← List.singleton_append, ofLines_append, ofLines_append,
    ofLines_singleton, ofLines_singleton, ← String.append_assoc, String.empty_append]

/-- The section of the steps is one line for each step, and an empty line. -/
theorem stepSection_eq (a : Analysis) :
    stepSection a = ofLines (tableLines stepLine a.derivation.steps ++ [""]) := by
  have hrows : tableRows stepRow a.derivation.steps =
      ofLines (tableLines stepLine a.derivation.steps) :=
    tableRows_eq (fun _ _ => rfl) a.derivation.steps
  rw [stepSection, hrows, ofLines_append, ofLines_singleton, String.empty_append]

section

variable {text : String} {a : Analysis}

/-- The lines of the section of the tokens are those it is written from. -/
theorem lines_tokenSection (h : analyze text = .ok a) :
    lines (tokenSection a).toList =
      (Token.printAll a.tokens :: (tableLines tokenLine a.tokens ++ [""])).map String.toList := by
  have hwell : ∀ t ∈ a.tokens, t.WellFormed := wellFormed_of_analyze h
  rw [tokenSection_eq]
  refine lines_ofLines ?_
  rw [List.forall_mem_cons, List.forall_mem_append, List.forall_mem_singleton]
  refine ⟨isLine_printAll fun t ht => (hwell t ht).isLine_text, ?_, isLine_ofList (by decide)⟩
  refine forall_mem_tableLines fun t ht number => ?_
  exact isLine_tableLine t.kind.isLine_label (hwell t ht).isLine_text

/-- The lines of the section of the steps are those it is written from. -/
theorem lines_stepSection (h : analyze text = .ok a) :
    lines (stepSection a).toList =
      (tableLines stepLine a.derivation.steps ++ [""]).map String.toList := by
  have hwell : ∀ t ∈ a.tokens, t.WellFormed := wellFormed_of_analyze h
  obtain ⟨ts, -, rfl⟩ := analyze_eq_ok_iff.1 h
  rw [stepSection_eq]
  refine lines_ofLines ?_
  rw [List.forall_mem_append, List.forall_mem_singleton]
  refine ⟨forall_mem_tableLines fun step hstep number => ?_, isLine_ofList (by decide)⟩
  refine isLine_tableLine step.stage.isLine_label (Step.isLine_description fun t ht => ?_)
  exact (hwell t (mem_of_shown? hstep ht)).isLine_text

/-- The section of the tokens has two lines more than there are tokens. -/
theorem length_lines_tokenSection (h : analyze text = .ok a) :
    (lines (tokenSection a).toList).length = a.tokens.length + 2 := by
  rw [lines_tokenSection h, List.length_map, List.length_cons, List.length_append,
    length_tableLines]
  rfl

/-- The section of the steps has one line more than there are steps. -/
theorem length_lines_stepSection (h : analyze text = .ok a) :
    (lines (stepSection a).toList).length = a.derivation.steps.length + 1 := by
  rw [lines_stepSection h, List.length_map, List.length_append, length_tableLines]
  rfl

/-- The row before the empty line is that of the step that tells the verdict. -/
theorem exists_lines_stepSection (h : analyze text = .ok a) :
    ∃ rows, lines (stepSection a).toList =
      rows ++ [(stepLine a.derivation.steps.length a.derivation.verdict.step).toList, []] := by
  have hlength : a.derivation.steps.length = 1 + a.derivation.taken.length := by
    rw [Derivation.length_steps, Nat.add_comm]
  refine ⟨(tableLines stepLine a.derivation.taken).map String.toList, ?_⟩
  rw [lines_stepSection h, hlength, Derivation.steps, tableLines_concat, List.append_assoc,
    List.map_append]
  rfl

end

/-! ### Selected sections -/

/-- The sections that the flags select, in the order in which they are printed. -/
def Options.sections (options : Options) (a : Analysis) : List String :=
  match options.tokens, options.steps, options.tree with
  | false, false, false => [tokenSection a, verdictSection a, stepSection a, treeSection a]
  | tokens, steps, tree =>
    (if tokens then [tokenSection a] else []) ++ (if steps then [stepSection a] else []) ++
      (if tree then [treeSection a] else [])

/-- The report is the sections that the flags ask for, one after the other. -/
theorem report_eq_join (options : Options) (a : Analysis) :
    report options a = String.join (options.sections a) := by
  unfold report Options.sections Options.printsAll
  cases options.tokens <;> cases options.steps <;> cases options.tree <;>
    simp [sectionWhen, String.append_assoc]

/-! ### Runs of the program -/

/-- A text without tokens ends the program with status 1, and only the rules may be printed. -/
theorem runExpression_of_error (time : String) (options : Options) {text : String} {e : LexError}
    (h : analyze text = .error e) :
    (runExpression time options text).code = 1 ∧
      (runExpression time options text).stdout = grammarSection options := by
  unfold runExpression
  simp only [Log.snd_addAnalysis, h, and_self]

/-- A text with tokens ends the program with status 0 or 1 by its verdict, after the rules, if they
are asked for, and the selected sections. -/
theorem runExpression_of_ok (time : String) (options : Options) {text : String} {a : Analysis}
    (h : analyze text = .ok a) :
    (runExpression time options text).code = (if a.derivation.isValid then 0 else 1) ∧
      (runExpression time options text).stdout =
        grammarSection options ++ String.join (options.sections a) := by
  unfold runExpression
  simp only [Log.snd_addAnalysis, h, report_eq_join]
  split
  · exact ⟨rfl, rfl⟩
  · exact ⟨rfl, rfl⟩

/-- When a text is given, the program runs on it. -/
theorem runOptions_of_some (time : String) {options : Options} {text : String}
    (h : options.expression? = some text) :
    runOptions time options = runExpression time options text := by
  rw [runOptions, h]

/-- The status tells whether the text is valid, and nothing else. -/
theorem code_runExpression (time text : String) (options : Options) :
    ((runExpression time options text).code = 0 ↔
      ∃ a, analyze text = .ok a ∧ a.derivation.isValid = true) ∧
    ((runExpression time options text).code = 0 ∨ (runExpression time options text).code = 1) := by
  cases h : analyze text with
  | error e =>
    obtain ⟨hcode, -⟩ := runExpression_of_error time options h
    rw [hcode]
    simp
  | ok a =>
    obtain ⟨hcode, -⟩ := runExpression_of_ok time options h
    rw [hcode]
    cases hvalid : a.derivation.isValid with
    | false => simp [hvalid]
    | true => simp [hvalid]

/-- The stage in the last row and the verdict are those of the status. -/
theorem agree_of_code {text : String} {a : Analysis} {code : Nat} (h : analyze text = .ok a)
    (hcode : code = if a.derivation.isValid then 0 else 1) :
    verdictSection a =
        (if code = 0 then "Expression is syntactically valid"
          else "Expression is not syntactically valid") ++ "\n\n" ∧
      ∃ rows description, lines (stepSection a).toList =
        rows ++ [(tableLine 18 a.derivation.steps.length
          (if code = 0 then "Analysis complete" else "Error") description).toList, []] := by
  obtain ⟨rows, hlines⟩ := exists_lines_stepSection h
  rw [hlines, verdictSection, verdictText, hcode, Derivation.isValid]
  cases a.derivation.verdict with
  | valid e => exact ⟨rfl, rows, _, rfl⟩
  | invalid error => exact ⟨rfl, rows, _, rfl⟩

/-- The status of a run on an expression is 0 if the text is valid and 1 otherwise.  A text without
tokens leaves nothing on standard output but the grammar, if that is asked for; any other text has
the selected sections after it, with as many lines as there are tokens, steps and nodes to show, and
the verdict and the last step agree with the status. -/
theorem runOptions_agrees (time text : String) (options : Options)
    (htext : options.expression? = some text) :
    (∀ args, Request.ofArguments args = .ok (.analysis options) →
      run time args = runOptions time options) ∧
    ((runOptions time options).code = 0 ↔
      ∃ a, analyze text = .ok a ∧ a.derivation.isValid = true) ∧
    ((runOptions time options).code = 0 ∨ (runOptions time options).code = 1) ∧
    (∀ e, analyze text = .error e →
      (runOptions time options).stdout = if options.grammar then grammarText ++ "\n" else "") ∧
    ∀ a, analyze text = .ok a →
      (runOptions time options).stdout =
        (if options.grammar then grammarText ++ "\n" else "") ++
          String.join (options.sections a) ∧
      (lines (tokenSection a).toList).length = a.tokens.length + 2 ∧
      (lines (stepSection a).toList).length = a.derivation.steps.length + 1 ∧
      (lines (treeSection a).toList).length = a.derivation.tree.size ∧
      verdictSection a =
        (if (runOptions time options).code = 0 then "Expression is syntactically valid"
          else "Expression is not syntactically valid") ++ "\n\n" ∧
      ∃ rows description, lines (stepSection a).toList =
        rows ++ [(tableLine 18 a.derivation.steps.length
          (if (runOptions time options).code = 0 then "Analysis complete" else "Error")
            description).toList, []] := by
  have hrun : runOptions time options = runExpression time options text :=
    runOptions_of_some time htext
  obtain ⟨hvalid, hcodes⟩ := code_runExpression time text options
  rw [hrun]
  refine ⟨?_, hvalid, hcodes, ?_, ?_⟩
  · intro args hargs
    rw [run, hargs, ← hrun]
  · intro e he
    exact (runExpression_of_error time options he).2
  · intro a ha
    obtain ⟨hcode, hstdout⟩ := runExpression_of_ok time options ha
    exact ⟨hstdout, length_lines_tokenSection ha, length_lines_stepSection ha,
      Tree.length_lines_draw (unbroken_tree ha), agree_of_code ha hcode⟩

/-- What `--steps` asks for on an expression. -/
def stepOptions (text : String) : Options :=
  ⟨some text, false, false, true, false, 0, 0⟩

/-- The tokens of `(1`. -/
def unclosedTokens : List Token :=
  [.opening, .number "1"]

/-- The steps of `(1` are printed although the text is not valid, and a text without tokens has no
section. -/
theorem runOptions_agrees_unclosed :
    (Request.ofArguments ["--steps", "(1"] = .ok (.analysis (stepOptions "(1")) ∧
      analyze "(1" = .ok ⟨unclosedTokens, parse unclosedTokens⟩ ∧
      (run "TIME" ["--steps", "(1"]).code = 1 ∧
      (run "TIME" ["--steps", "(1"]).stdout =
        "   1  Primary            Found opening parenthesis, starting subexpression\n" ++
        "   2  Primary            Found number literal '1'\n" ++
        "   3  Error              Unmatched parenthesis\n\n") ∧
    analyze "1@" = .error (.unexpectedCharacter '@') ∧
      (runOptions "TIME" (stepOptions "1@")).stdout = "" := by
  have hargs : Request.ofArguments ["--steps", "(1"] = .ok (.analysis (stepOptions "(1")) := by rfl
  have hanalyze : analyze "(1" = .ok ⟨unclosedTokens, parse unclosedTokens⟩ := by rfl
  have herror : analyze "1@" = .error (.unexpectedCharacter '@') := by rfl
  obtain ⟨hrun, hzero, hcodes, -, hok⟩ :=
    runOptions_agrees "TIME" "(1" (stepOptions "(1") rfl
  obtain ⟨-, -, -, hstdout, -⟩ := runOptions_agrees "TIME" "1@" (stepOptions "1@") rfl
  have hinvalid : (runOptions "TIME" (stepOptions "(1")).code ≠ 0 := by
    intro h
    obtain ⟨a, ha, hvalid⟩ := hzero.1 h
    obtain rfl := Except.ok.inj (hanalyze.symm.trans ha)
    revert hvalid
    decide
  refine ⟨⟨hargs, hanalyze, ?_, ?_⟩, herror, hstdout _ herror⟩
  · rw [hrun _ hargs]
    exact hcodes.resolve_left hinvalid
  · rw [hrun _ hargs, (hok _ hanalyze).1]
    decide +kernel

end CommandLine

end InfixArith
