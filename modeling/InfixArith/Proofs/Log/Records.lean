import InfixArith.Proofs.Rules.Contract
import InfixArith.Proofs.Scanning.FirstError

/-!
# The records of an analysis

The log is carried through the loop that reads the characters and through the pass over the tokens.
By induction on what is left to read, both return what they return without a log, and they add one
record for each token that the scan finds (`Log.addCharacters_eq`) and one for each step that the
pass takes (`Log.addRun_eq`), up to the point where they stop.  So an analysis with a log is the
analysis, and it adds one list of records, `Record.ofAnalysis` (`Log.addAnalysis_eq`).

What a log keeps of the records that are added to it depends on its threshold alone
(`Log.records_addAll`), so every log keeps of that list the records that are severe enough
(`analysisRecords_eq`).  The list tells what the analysis finds: the tokens and their number, the
steps before the verdict, and the verdict with its numbers, or the tokens before the error of the
scan and nothing else (`analysisRecords_story`).
-/

namespace InfixArith

/-! ### What a log keeps -/

/-- A log keeps of the records that are added those that are severe enough, in their order. -/
theorem Log.records_addAll (log : Log) (rs : List Record) :
    (log.addAll rs).records =
      log.records ++ rs.filter fun r => r.level.isKept log.threshold := by
  induction rs generalizing log with
  | nil => exact (List.append_nil _).symm
  | cons r rs ih =>
    have hrest := ih (log.add r)
    rw [threshold_add, records_add, List.append_assoc, ← List.filter_append] at hrest
    exact hrest

/-! ### The records that are made -/

namespace Record

/-- The records of a scan of the text. -/
def ofScan (text : String) (s : Scan) : List Record :=
  s.tokens.map scanned ++
    match s.error? with
    | none => [scanDone text s.tokens]
    | some _ => []

/-- The record that tells the verdict on tokens. -/
def ofVerdict (ts : List Token) (taken : List Step) : Verdict → Record
  | .valid e => parsed ts e
  | .invalid error => parsingFailed taken error

/-- The records of the check of tokens against the grammar. -/
def ofDerivation (ts : List Token) (d : Derivation) : List Record :=
  d.taken.map step ++ [ofVerdict ts d.taken d.verdict]

/-- The records of an analysis of the text, the first one first. -/
def ofAnalysis (text : String) : List Record :=
  ofScan text (scan text) ++
    match tokenize text with
    | .ok ts => ofDerivation ts (parse ts)
    | .error _ => []

end Record

/-! ### The log of the scan -/

namespace Log

/-- From any characters on, the loop returns the tokens so far and those of the scan, or its error,
and it has added a record for each token of the scan. -/
theorem addCharacters_eq (log : Log) (tokens : List Token) (cs : List Char) :
    log.addCharacters tokens cs =
      (log.addAll ((scan (.ofList cs)).tokens.map .scanned),
        Scan.result
          ⟨tokens.reverse ++ (scan (.ofList cs)).tokens, (scan (.ofList cs)).error?⟩) := by
  fun_induction addCharacters log tokens cs with
  | case1 log tokens =>
    have hempty : scan (.ofList []) = ⟨[], none⟩ := rfl
    rw [hempty, List.append_nil]
    rfl
  | case2 log tokens c cs hblank ih =>
    rw [ih, scan_ofList_cons, hblank]
    rfl
  | case3 log tokens c cs t htoken ih =>
    rw [ih, scan_ofList_cons, htoken, List.reverse_cons, List.append_assoc]
    rfl
  | case4 log tokens c cs e hfailure =>
    rw [scan_ofList_cons, hfailure]
    rfl

/-- The scan with a log is the scan, and it adds its records. -/
theorem addScan_eq (log : Log) (text : String) :
    log.addScan text = (log.addAll (Record.ofScan text (scan text)), tokenize text) := by
  have hread := addCharacters_eq log [] text.toList
  rw [String.ofList_toList] at hread
  rw [addScan, hread, tokenize]
  cases hscan : scan text with
  | mk ts error? =>
    cases error? with
    | none =>
      rw [Record.ofScan, addAll_append]
      rfl
    | some e =>
      rw [Record.ofScan, List.append_nil]
      rfl

/-! ### The log of the rules -/

/-- From any state on, the pass returns what it returns without a log, and it has logged the steps
that it takes from there. -/
theorem addRun_eq (log : Log) (asked : Rule) (outer : Nat) (s : State) (taken : List Step)
    (ts : List Token) :
    log.addRun asked outer s taken ts =
      (log.addSteps (run asked outer s [] ts).steps, run asked outer s taken ts) := by
  induction ts generalizing log s taken with
  | nil => rfl
  | cons t ts ih =>
    unfold addRun run
    cases s.next asked outer t with
    | halt steps verdict => rfl
    | shift steps s' =>
      -- The steps of this token come before those that the rest of the tokens add.
      have hsteps : (run asked outer s' (steps.reverse ++ []) ts).steps =
          steps ++ (run asked outer s' [] ts).steps := by
        rw [run_taken, List.append_nil, List.reverse_reverse]
      rw [hsteps, addSteps_append]
      exact ih (log.addSteps steps) s' (steps.reverse ++ taken)

/-- The pass over the tokens logs what the rules log. -/
theorem fst_addRun_eq_journal (log : Log) (ts : List Token) :
    (log.addRun .expression 0 .start [] ts).1 =
      (Rule.expression.procedure ts (.start log)).parser.journal := by
  rw [addRun_eq, journal_procedure]
  rfl

/-- The check of tokens with a log is the check, and it adds its records. -/
theorem addDerivation_eq (log : Log) (ts : List Token) :
    log.addDerivation ts = (log.addAll (Record.ofDerivation ts (parse ts)), parse ts) := by
  rw [addDerivation, addRun_eq, Record.ofDerivation, addAll_append, parse_eq_run]
  cases (run .expression 0 .start [] ts).whole <;> rfl

/-! ### The log of an analysis -/

/-- An analysis with a log is the analysis, and it adds its records one after the other. -/
theorem addAnalysis_eq (log : Log) (text : String) :
    log.addAnalysis text = (log.addAll (Record.ofAnalysis text), analyze text) := by
  rw [addAnalysis, addScan_eq, Record.ofAnalysis, addAll_append, analyze]
  cases tokenize text with
  | ok ts =>
    simp only [addDerivation_eq]
    rfl
  | error e => rfl

/-- The log does not change what the analysis finds. -/
theorem snd_addAnalysis (log : Log) (text : String) : (log.addAnalysis text).2 = analyze text := by
  rw [addAnalysis_eq]

end Log

/-- A log keeps of the records of an analysis those that are severe enough. -/
theorem analysisRecords_eq (threshold : Option Level) (text : String) :
    analysisRecords threshold text =
      (Record.ofAnalysis text).filter fun r => r.level.isKept threshold := by
  rw [analysisRecords, Log.addAnalysis_eq, Log.records_addAll, Log.records_empty, List.nil_append]
  rfl

/-- No record is less severe than the last level. -/
theorem isKept_trace (level : Level) : level.isKept (some .trace) = true := by
  cases level <;> rfl

/-- At the least severe level everything is kept. -/
theorem analysisRecords_trace (text : String) :
    analysisRecords (some .trace) text = Record.ofAnalysis text := by
  rw [analysisRecords_eq, List.filter_eq_self]
  intro r hr
  exact isKept_trace r.level

/-! ### The records and the result -/

section

variable {text p r : String} {ts : List Token} {e : LexError}

/-- The steps that are logged are all but the one that tells the verdict. -/
theorem map_step_taken (d : Derivation) :
    d.taken.map Record.step = d.lines.dropLast.map fun line => ⟨.trace, .rules, line⟩ := by
  rw [Derivation.lines, ← List.map_dropLast, Derivation.dropLast_steps, List.map_map]
  rfl

/-- The records of a text that has tokens are those of the scan and those of the check. -/
theorem ofAnalysis_of_tokenize (h : tokenize text = .ok ts) :
    Record.ofAnalysis text =
      ts.map Record.scanned ++ .scanDone text ts :: Record.ofDerivation ts (parse ts) := by
  rw [Record.ofAnalysis, h, tokenize_eq_ok_iff.1 h, Record.ofScan, List.append_assoc]
  rfl

/-- An error of the scan leaves the records of the tokens before it. -/
theorem StopsBetween.ofAnalysis_eq (h : StopsBetween p r text e) (htext : tokenize text = .error e)
    (hp : tokenize p = .ok ts) : Record.ofAnalysis text = ts.map Record.scanned := by
  obtain ⟨q, rfl, hfailure⟩ := stopsBetween_iff.1 h
  have hscan : scan p = ⟨ts, none⟩ := tokenize_eq_ok_iff.1 hp
  rw [Record.ofAnalysis, htext, hfailure.scan_eq, hscan, Record.ofScan]
  simp

/-- The text before an error has tokens. -/
theorem StopsBetween.exists_tokenize (h : StopsBetween p r text e) :
    ∃ ts, tokenize p = .ok ts := by
  cases h with
  | character hp hc => exact hp
  | identifier hp hend hname hbegin => exact hp

/-- A text with an error can be divided at it. -/
theorem exists_stopsBetween (h : tokenize text = .error e) : ∃ p r, StopsBetween p r text e := by
  obtain ⟨p, q, r, htext, hfailure⟩ := exists_firstFailure (tokenize_eq_error_iff_scan.1 h)
  exact ⟨p, r, stopsBetween_iff.2 ⟨q, htext, hfailure⟩⟩

end

/-- The records of a text that has tokens are one for each token, one with their number, one for
each step but the last, and one for the verdict; those of a text that has none are one for each
token before the error.  A higher level keeps the records that are as severe as it or more so.  The
records of the steps are those that the rules leave, which log each step when they write it down. -/
theorem analysisRecords_story :
    (∀ (text : String) (ts : List Token), tokenize text = .ok ts →
      analysisRecords (some .trace) text =
        ts.map (fun t => ⟨.trace, .scan, "Scanned " ++ t.describe⟩) ++
          ⟨.debug, .scan,
            "Scanned " ++ Nat.repr ts.length ++ " tokens from " ++ Text.quote text⟩ ::
          ((parse ts).lines.dropLast.map (fun line => ⟨.trace, .rules, line⟩) ++
            [⟨.debug, .parse,
              match (parse ts).verdict with
              | .valid e =>
                "Parsed " ++ Nat.repr ts.length ++ " tokens into " ++ Nat.repr e.nodeCount ++
                  " nodes"
              | .invalid error =>
                "Parsing failed after " ++ Nat.repr ((parse ts).steps.length - 1) ++ " steps: " ++
                  error.message⟩])) ∧
    (∀ (text : String) (e : LexError), tokenize text = .error e →
      (∃ p r, StopsBetween p r text e) ∧
        ∀ p r, StopsBetween p r text e → ∃ ts, tokenize p = .ok ts ∧
          analysisRecords (some .trace) text =
            ts.map fun t => ⟨.trace, .scan, "Scanned " ++ t.describe⟩) ∧
    (∀ text : String,
      (∀ level : Level, analysisRecords (some level) text =
        (analysisRecords (some .trace) text).filter fun r => r.level.rank ≤ level.rank) ∧
      analysisRecords none text = []) ∧
    ∀ (log : Log) (ts : List Token), (log.addRun .expression 0 .start [] ts).1 =
      (Rule.expression.procedure ts (.start log)).parser.journal := by
  refine ⟨?_, ?_, ?_, Log.fst_addRun_eq_journal⟩
  · intro text ts h
    rw [analysisRecords_trace, ofAnalysis_of_tokenize h, Record.ofDerivation, map_step_taken,
      Derivation.length_steps, Nat.add_sub_cancel]
    cases (parse ts).verdict <;> rfl
  · intro text e h
    refine ⟨exists_stopsBetween h, fun p r hstops => ?_⟩
    obtain ⟨ts, hts⟩ := hstops.exists_tokenize
    refine ⟨ts, hts, ?_⟩
    rw [analysisRecords_trace]
    exact hstops.ofAnalysis_eq h hts
  · intro text
    rw [analysisRecords_trace]
    constructor
    · intro level
      rw [analysisRecords_eq]
      rfl
    · rw [analysisRecords_eq]
      exact List.filter_false _

/-- A sum without its second term is logged up to the failure, and a name that is no function leaves
the tokens before it. -/
theorem analysisRecords_story_failures :
    (tokenize "2+" = .ok [.number "2", .operator '+'] ∧
      (analysisRecords (some .trace) "2+").map Record.message =
        ["Scanned NUMBER \"2\"", "Scanned OPERATOR \"+\"", "Scanned 2 tokens from \"2+\"",
          "Primary: Found number literal '2'",
          "Parsing failed after 1 steps: Unexpected end of input"] ∧
      (analysisRecords (some .debug) "2+").map Record.message =
        ["Scanned 2 tokens from \"2+\"", "Parsing failed after 1 steps: Unexpected end of input"]) ∧
    tokenize "2+sine(@)" = .error (.unexpectedIdentifier "sine") ∧
      ∃ p r ts, StopsBetween p r "2+sine(@)" (.unexpectedIdentifier "sine") ∧
        tokenize p = .ok ts ∧
        analysisRecords (some .trace) "2+sine(@)" =
          ts.map fun t => ⟨.trace, .scan, "Scanned " ++ t.describe⟩ := by
  have htokens : tokenize "2+" = .ok [.number "2", .operator '+'] := by rfl
  have herror : tokenize "2+sine(@)" = .error (.unexpectedIdentifier "sine") := by rfl
  have hrecords := analysisRecords_story.1 _ _ htokens
  obtain ⟨⟨p, r, hstops⟩, hstory⟩ := analysisRecords_story.2.1 _ _ herror
  obtain ⟨ts, hts, hbefore⟩ := hstory p r hstops
  refine ⟨⟨htokens, ?_, ?_⟩, herror, p, r, ts, hstops, hts, hbefore⟩
  · rw [hrecords]
    decide +kernel
  · rw [(analysisRecords_story.2.2.1 "2+").1 .debug, hrecords]
    decide +kernel

end InfixArith
