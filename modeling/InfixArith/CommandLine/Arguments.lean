/-!
# Command line arguments

Arguments are read from the first to the last.  An argument that begins with two hyphens is the long
name of a flag, one that begins with one hyphen is a cluster of short names, and any other one is
the expression; after an argument of two hyphens alone every argument is the expression.  Asking for
help or for the version ends the reading at once.  The main definitions are `Flag`, `UsageError`,
`Options`, `Request` and `Request.ofArguments`.
-/

namespace InfixArith.CommandLine

/-- A flag of the program. -/
inductive Flag where
  | grammar
  | help
  | quiet
  | steps
  | tokens
  | tree
  | verbose
  | version
deriving DecidableEq

namespace Flag

/-- All flags. -/
def all : List Flag :=
  [grammar, help, quiet, steps, tokens, tree, verbose, version]

/-- The long name, without its hyphens. -/
def longName : Flag → String
  | grammar => "grammar"
  | help => "help"
  | quiet => "quiet"
  | steps => "steps"
  | tokens => "tokens"
  | tree => "tree"
  | verbose => "verbose"
  | version => "version"

/-- The short name, for a flag that has one. -/
def shortName? : Flag → Option Char
  | help => some 'h'
  | quiet => some 'q'
  | verbose => some 'v'
  | version => some 'V'
  | _ => none

/-- Whether the flag may be given more than once. -/
def isCounted : Flag → Bool
  | quiet | verbose => true
  | _ => false

/-- The flag with this long name, when there is one. -/
def ofLongName? (name : String) : Option Flag :=
  all.find? fun f => decide (f.longName = name)

/-- The flag with this short name, when there is one. -/
def ofShortName? (c : Char) : Option Flag :=
  all.find? fun f => decide (f.shortName? = some c)

/-- The flag as messages show it. -/
def display (f : Flag) : String :=
  "--" ++ f.longName

end Flag

/-- Why the arguments ask for nothing that the program can do. -/
inductive UsageError where
  /-- Neither an expression nor the grammar is asked for. -/
  | missingExpression
  /-- An unknown flag, or a second expression. -/
  | unexpectedArgument (arg : String)
  /-- Two flags that exclude each other. -/
  | conflict (first second : Flag)
  /-- A flag that may be given once is given again. -/
  | repeatedFlag (f : Flag)
  /-- A flag is given a value. -/
  | unexpectedValue (f : Flag) (value : String)
deriving DecidableEq

/-- The error in words. -/
def UsageError.message : UsageError → String
  | missingExpression => "error: The following required arguments were not provided:"
  | unexpectedArgument arg =>
    "error: Found argument '" ++ arg ++ "' which wasn't expected, or isn't valid in this context"
  | conflict first second =>
    "error: The argument '" ++ first.display ++ "' cannot be used with '" ++ second.display ++ "'"
  | repeatedFlag f =>
    "error: The argument '" ++ f.display ++
      "' was provided more than once, but cannot be used multiple times"
  | unexpectedValue f value =>
    "error: The value '" ++ value ++ "' was provided to '" ++ f.display ++
      "' but it wasn't expecting any more values"

/-- What the program is to print about an expression. -/
structure Options where
  /-- The expression to analyze. -/
  expression? : Option String
  /-- Print the grammar. -/
  grammar : Bool
  /-- Print the token table. -/
  tokens : Bool
  /-- Print the derivation steps. -/
  steps : Bool
  /-- Print the tree. -/
  tree : Bool
  /-- How often more output is asked for. -/
  verbose : Nat
  /-- How often less output is asked for. -/
  quiet : Nat
deriving DecidableEq

/-- What the arguments ask for. -/
inductive Request where
  /-- The help text. -/
  | help
  /-- The version. -/
  | version
  /-- An analysis. -/
  | analysis (options : Options)
deriving DecidableEq

/-- What has been read of the arguments. -/
structure Reader where
  /-- The flags, the last one first. -/
  flags : List Flag
  /-- The expression, once it is found. -/
  expression? : Option String
  /-- Whether every further argument is an expression. -/
  onlyExpressions : Bool

/-- How reading goes on after an argument or a part of one. -/
abbrev Progress (α : Type) : Type :=
  Except UsageError (Request ⊕ α)

namespace Reader

/-- Nothing is read yet. -/
def start : Reader :=
  ⟨[], none, false⟩

/-- A flag is read.  Help and version are answered at once. -/
def addFlag (r : Reader) : Flag → Request ⊕ Reader
  | .help => .inl .help
  | .version => .inl .version
  | f => .inr { r with flags := f :: r.flags }

/-- An expression is read; there may be only one. -/
def addExpression (r : Reader) (arg : String) : Progress Reader :=
  match r.expression? with
  | none => .ok (.inr { r with expression? := some arg })
  | some _ => .error (.unexpectedArgument arg)

/-- The long name of a flag is read, with what follows it in the same argument; a value after `=` is
an error, even an empty one. -/
def addLong (r : Reader) (name : String) (tail : List Char) : Progress Reader :=
  match Flag.ofLongName? name, tail with
  | none, _ => .error (.unexpectedArgument ("--" ++ name))
  | some f, [] => .ok (r.addFlag f)
  | some f, _ :: value => .error (.unexpectedValue f (String.ofList value))

/-- A cluster of short names is read. -/
def addShort (r : Reader) : List Char → Progress Reader
  | [] => .ok (.inr r)
  | c :: cs =>
    match Flag.ofShortName? c with
    | none => .error (.unexpectedArgument ("-" ++ String.singleton c))
    | some f =>
      match r.addFlag f with
      | .inl request => .ok (.inl request)
      | .inr r' => r'.addShort cs

/-- An argument is read. -/
def addArgument (r : Reader) (arg : String) : Progress Reader :=
  if r.onlyExpressions then r.addExpression arg
  else
    match arg.toList with
    | ['-', '-'] => .ok (.inr { r with onlyExpressions := true })
    | '-' :: '-' :: cs =>
      r.addLong (String.ofList (cs.takeWhile (· ≠ '='))) (cs.dropWhile (· ≠ '='))
    | '-' :: c :: cs => r.addShort (c :: cs)
    | _ => r.addExpression arg

/-- Arguments are read until one of them is answered at once. -/
def addArguments (r : Reader) : List String → Progress Reader
  | [] => .ok (.inr r)
  | arg :: args =>
    match r.addArgument arg with
    | .error e => .error e
    | .ok (.inl request) => .ok (.inl request)
    | .ok (.inr r') => r'.addArguments args

/-- The flags in the order of the arguments. -/
def given (r : Reader) : List Flag :=
  r.flags.reverse

/-- Whether the flag was given. -/
def has (r : Reader) (f : Flag) : Bool :=
  r.flags.contains f

/-- The conflict between less and more output, named in the order of the arguments. -/
def conflict? (r : Reader) : Option UsageError :=
  if r.has .quiet && r.has .verbose then
    match r.given.find? fun f => f.isCounted with
    | some .verbose => some (.conflict .verbose .quiet)
    | _ => some (.conflict .quiet .verbose)
  else
    none

/-- The expression may only be left out where the grammar is asked for. -/
def missing? (r : Reader) : Option UsageError :=
  if r.expression?.isNone && !r.has .grammar then some .missingExpression else none

/-- The first flag that was given again although it may be given once. -/
def repeated? (r : Reader) : Option UsageError :=
  (r.given.find? fun f => !f.isCounted && decide (1 < r.flags.count f)).map .repeatedFlag

/-- The options that were read. -/
def options (r : Reader) : Options where
  expression? := r.expression?
  grammar := r.has .grammar
  tokens := r.has .tokens
  steps := r.has .steps
  tree := r.has .tree
  verbose := r.flags.count .verbose
  quiet := r.flags.count .quiet

/-- What all arguments together ask for: a conflict counts before a missing expression, and that
before a flag that is given again. -/
def request (r : Reader) : Except UsageError Request :=
  match r.conflict?.or (r.missing?.or r.repeated?) with
  | some e => .error e
  | none => .ok (.analysis r.options)

end Reader

/-- What the arguments ask for. -/
def Request.ofArguments (args : List String) : Except UsageError Request :=
  match Reader.start.addArguments args with
  | .error e => .error e
  | .ok (.inl request) => .ok request
  | .ok (.inr r) => r.request

end InfixArith.CommandLine
