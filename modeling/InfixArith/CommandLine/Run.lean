import InfixArith.CommandLine.Report
import InfixArith.Log.Analysis

/-!
# A run of the program

The main definitions are `Result`, the exit status of a run and all that it prints, and
`CommandLine.run`.  Arguments that cannot be read give the status 2; an expression that has no
tokens or is not valid gives the status 1.
-/

namespace InfixArith.CommandLine

/-- What a run of the program leaves behind. -/
structure Result where
  /-- The exit status. -/
  code : Nat
  /-- The text on standard output. -/
  stdout : String
  /-- The text on standard error. -/
  stderr : String
deriving DecidableEq

/-- The name and the version of the program. -/
def versionText : String :=
  "expression-analyzer-cli 0.1.0\n"

/-- The lines of the help text below the version. -/
def helpLines : List String :=
  ["Martin Jonsson <martinjonsson01@gmail.com>",
    "Analyzes the syntax of an arithmetic expression",
    "",
    "USAGE:",
    "    expression-analyzer-cli [OPTIONS] [EXPRESSION]",
    "",
    "ARGS:",
    "    <EXPRESSION>    The expression to analyze",
    "",
    "OPTIONS:",
    "        --grammar    Print the grammar the expression is checked against",
    "    -h, --help       Print help information",
    "    -q, --quiet      Less output per occurrence",
    "        --steps      Print the derivation steps",
    "        --tokens     Print the token table",
    "        --tree       Print the syntax tree",
    "    -v, --verbose    More output per occurrence",
    "    -V, --version    Print version information"]

/-- The help text. -/
def helpText : String :=
  versionText ++ String.join (helpLines.map (· ++ "\n"))

/-- How much output is asked for, as a signed byte: each request for more adds one, each request for
less takes one away, and both counts wrap around at 256. -/
def Options.verbosity (options : Options) : Int8 :=
  Int8.ofNat options.verbose - Int8.ofNat options.quiet

/-- The verbosity is the difference of the two counts, brought into the range of a signed byte. -/
theorem Options.toInt_verbosity (options : Options) :
    options.verbosity.toInt = ((options.verbose : Int) - options.quiet).bmod 256 := by
  have hofNat (n : Nat) : (Int8.ofNat n).toInt = (n : Int).bmod 256 := by
    rw [← Int8.ofInt_eq_ofNat, Int8.toInt_ofInt]
  rw [verbosity, Int8.toInt_sub, hofNat, hofNat]
  change ((options.verbose : Int).bmod 256 - (options.quiet : Int).bmod 256).bmod 256 = _
  rw [Int.bmod_sub_bmod, Int.sub_bmod_bmod]

/-- The least severe level that is logged at a verbosity: errors at zero, one level more for each
step above it, and nothing below it. -/
def thresholdAt (verbosity : Int8) : Option Level :=
  match verbosity.toInt with
  | .negSucc _ => none
  | .ofNat 0 => some .error
  | .ofNat 1 => some .warn
  | .ofNat 2 => some .info
  | .ofNat 3 => some .debug
  | .ofNat _ => some .trace

/-- The least severe level that is logged. -/
def Options.threshold (options : Options) : Option Level :=
  thresholdAt options.verbosity

/-- A record as it is logged at the given time. -/
def logLine (time : String) (r : Record) : String :=
  "[" ++ time ++ " " ++ Text.padRight 5 r.level.label ++ " " ++ r.source.target ++ "] " ++
    r.message ++ "\n"

/-- The records as they are logged. -/
def logText (time : String) (log : Log) : String :=
  String.join (log.records.map (logLine time))

/-- The expression was analyzed. -/
def analyzedRecord (text : String) (a : Analysis) : Record :=
  ⟨.info, .commandLine,
    "Analyzed " ++ Text.quote text ++ " into " ++ Nat.repr a.tokens.length ++ " tokens"⟩

/-- The message when the expression has no tokens. -/
def notTokenizedMessage (e : LexError) : String :=
  "Error: could not tokenize expression\n\nCaused by:\n    " ++ e.message ++ "\n"

/-- The message when the expression is not valid. -/
def notValidMessage : String :=
  "Error: expression is not syntactically valid\n"

/-- The grammar, when it is asked for. -/
def grammarSection (options : Options) : String :=
  if options.grammar then grammarText ++ "\n" else ""

/-- Analyzes an expression and reports on it. -/
def runExpression (time : String) (options : Options) (text : String) : Result :=
  let analyzed := (Log.empty options.threshold).addAnalysis text
  match analyzed.2 with
  | .error e =>
    ⟨1, grammarSection options, logText time analyzed.1 ++ notTokenizedMessage e⟩
  | .ok a =>
    let printed := grammarSection options ++ report options a
    let logged := logText time (analyzed.1.add (analyzedRecord text a))
    if a.derivation.isValid then ⟨0, printed, logged⟩
    else ⟨1, printed, logged ++ notValidMessage⟩

/-- Does what the options ask for. -/
def runOptions (time : String) (options : Options) : Result :=
  match options.expression? with
  | none => ⟨0, grammarSection options, ""⟩
  | some text => runExpression time options text

/-- Runs the program; log lines show the given time. -/
def run (time : String) (args : List String) : Result :=
  match Request.ofArguments args with
  | .error e => ⟨2, "", e.message⟩
  | .ok .help => ⟨0, helpText, ""⟩
  | .ok .version => ⟨0, versionText, ""⟩
  | .ok (.analysis options) => runOptions time options

end InfixArith.CommandLine
