/-!
# Logs

A log keeps the records that are at least as severe as its threshold.  The main definitions are
`Level`, `Source`, `Record` and `Log`, with `Log.add`, which drops a record that is not severe
enough when it arrives.
-/

namespace InfixArith

/-- The severity of a record. -/
inductive Level where
  | error
  | warn
  | info
  | debug
  | trace
deriving DecidableEq

namespace Level

/-- The place of the level from the most severe one to the least. -/
def rank : Level → Nat
  | error => 0
  | warn => 1
  | info => 2
  | debug => 3
  | trace => 4

/-- The name of the level. -/
def label : Level → String
  | error => "ERROR"
  | warn => "WARN"
  | info => "INFO"
  | debug => "DEBUG"
  | trace => "TRACE"

/-- Whether a record of the level is kept; without a threshold none is. -/
def isKept (threshold : Option Level) (level : Level) : Bool :=
  match threshold with
  | none => false
  | some least => decide (level.rank ≤ least.rank)

end Level

/-- The part of the analyzer that makes a record. -/
inductive Source where
  /-- The scan of the text. -/
  | scan
  /-- The rules of the grammar. -/
  | rules
  /-- The check of the tokens as a whole. -/
  | parse
  /-- The command line. -/
  | commandLine
deriving DecidableEq

/-- The name of the part, within the analyzer's own modules. -/
def Source.path : Source → String
  | scan => "analyzer::lexer"
  | rules => "analyzer::parser::recursive_descent"
  | parse => "analyzer::parser"
  | commandLine => "expression_analyzer_cli"

/-- The full name of the part, as log lines show it. -/
def Source.target : Source → String
  | commandLine => commandLine.path
  | s => "expression_analyzer::" ++ s.path

/-- A record of a log. -/
structure Record where
  /-- The severity. -/
  level : Level
  /-- The part that made it. -/
  source : Source
  /-- What it says. -/
  message : String
deriving DecidableEq

/-- Records that are at least as severe as a threshold. -/
structure Log where
  /-- The least severe level that is kept, when any is. -/
  threshold : Option Level
  /-- The records, the last one first. -/
  latest : List Record
deriving DecidableEq

namespace Log

/-- A log without records. -/
def empty (threshold : Option Level) : Log :=
  ⟨threshold, []⟩

/-- Adds a record unless its level is below the threshold. -/
def add (log : Log) (r : Record) : Log :=
  if r.level.isKept log.threshold then { log with latest := r :: log.latest } else log

/-- Adds records one after the other. -/
def addAll (log : Log) (rs : List Record) : Log :=
  rs.foldl add log

/-- The records in the order in which they were added. -/
def records (log : Log) : List Record :=
  log.latest.reverse

/-- An empty log has no records. -/
@[simp]
theorem records_empty (threshold : Option Level) : (empty threshold).records = [] :=
  rfl

/-- Adding a record leaves the threshold as it is. -/
@[simp]
theorem threshold_add (log : Log) (r : Record) : (log.add r).threshold = log.threshold := by
  unfold add
  split <;> rfl

/-- A record is added at the end when it is severe enough, and not at all otherwise. -/
theorem records_add (log : Log) (r : Record) :
    (log.add r).records =
      log.records ++ [r].filter fun r => r.level.isKept log.threshold := by
  unfold add
  split <;> simp_all [records]

/-- Records are added one list after the other. -/
theorem addAll_append (log : Log) (rs rs' : List Record) :
    log.addAll (rs ++ rs') = (log.addAll rs).addAll rs' :=
  List.foldl_append

end Log

end InfixArith
