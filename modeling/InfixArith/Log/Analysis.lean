import InfixArith.Analysis
import InfixArith.Log.Basic

/-!
# The log of an analysis

The analysis of a text with a log that is written on the way: a record for each token when it is
read, one with the number of tokens, one for each step when a rule takes it, and one for the verdict
with the numbers behind it.  An error of the scan ends the log.  The main definitions are
`Log.addCharacters` and `Log.addRun`, the two loops, and `Log.addAnalysis`.
-/

namespace InfixArith

namespace Record

/-- A token was read. -/
def scanned (t : Token) : Record :=
  ⟨.trace, .scan, "Scanned " ++ t.describe⟩

/-- The whole text was split into tokens. -/
def scanDone (text : String) (ts : List Token) : Record :=
  ⟨.debug, .scan, "Scanned " ++ Nat.repr ts.length ++ " tokens from " ++ Text.quote text⟩

/-- A rule of the grammar was recognized. -/
def step (s : Step) : Record :=
  ⟨.trace, .rules, s.line⟩

/-- The tokens derive an expression. -/
def parsed (ts : List Token) (e : Expr) : Record :=
  ⟨.debug, .parse,
    "Parsed " ++ Nat.repr ts.length ++ " tokens into " ++ Nat.repr e.nodeCount ++ " nodes"⟩

/-- The tokens derive no expression. -/
def parsingFailed (taken : List Step) (error : ParseError) : Record :=
  ⟨.debug, .parse,
    "Parsing failed after " ++ Nat.repr taken.length ++ " steps: " ++ error.message⟩

end Record

namespace Log

/-- Reads the characters from the left, a run that is as long as possible at a time, and logs each
token when it is read.  The tokens so far are listed from the last one to the first. -/
def addCharacters (log : Log) (tokens : List Token) :
    List Char → Log × Except LexError (List Token)
  | [] => (log, .ok tokens.reverse)
  | c :: cs =>
    match Reading.ofPiece (c :: cs.takeWhile (sameRun c)) with
    | .blank => log.addCharacters tokens (cs.dropWhile (sameRun c))
    | .token t => (log.add (.scanned t)).addCharacters (t :: tokens) (cs.dropWhile (sameRun c))
    | .failure e => (log, .error e)
termination_by cs => cs.length
decreasing_by all_goals exact Nat.lt_succ_of_le (List.dropWhile_suffix _).length_le

/-- Splits the text into tokens; their number is logged when there is no error. -/
def addScan (log : Log) (text : String) : Log × Except LexError (List Token) :=
  match log.addCharacters [] text.toList with
  | (read, .ok ts) => (read.add (.scanDone text ts), .ok ts)
  | (read, .error e) => (read, .error e)

/-- Logs steps one after the other. -/
def addSteps (log : Log) (steps : List Step) : Log :=
  log.addAll (steps.map .step)

/-- Steps are logged one list after the other. -/
theorem addSteps_append (log : Log) (steps steps' : List Step) :
    log.addSteps (steps ++ steps') = (log.addSteps steps).addSteps steps' := by
  rw [addSteps, List.map_append, addAll_append]
  rfl

/-- Reads tokens from the state `s` as `run` does, and logs the steps of each token when it is
looked at. -/
def addRun (log : Log) (asked : Rule) (outer : Nat) (s : State) (taken : List Step) :
    List Token → Log × Outcome
  | [] => (log.addSteps s.finish.1, ⟨s.finish.2, [], taken.reverse ++ s.finish.1⟩)
  | t :: ts =>
    match s.next asked outer t with
    | .shift steps s' => (log.addSteps steps).addRun asked outer s' (steps.reverse ++ taken) ts
    | .halt steps verdict => (log.addSteps steps, ⟨verdict, t :: ts, taken.reverse ++ steps⟩)

/-- Checks the tokens against the grammar; the verdict is logged last. -/
def addDerivation (log : Log) (ts : List Token) : Log × Derivation :=
  let checked := log.addRun .expression 0 .start [] ts
  let d : Derivation := ⟨checked.2.steps, checked.2.whole⟩
  match d.verdict with
  | .valid e => (checked.1.add (.parsed ts e), d)
  | .invalid error => (checked.1.add (.parsingFailed d.taken error), d)

/-- Analyzes the text and adds the records of the analysis. -/
def addAnalysis (log : Log) (text : String) : Log × Except LexError Analysis :=
  match log.addScan text with
  | (read, .error e) => (read, .error e)
  | (read, .ok ts) =>
    let checked := read.addDerivation ts
    (checked.1, .ok ⟨ts, checked.2⟩)

end Log

/-- The records that an analysis of the text makes, down to the threshold. -/
def analysisRecords (threshold : Option Level) (text : String) : List Record :=
  ((Log.empty threshold).addAnalysis text).1.records

end InfixArith
