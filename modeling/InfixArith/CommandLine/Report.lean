import InfixArith.Analysis
import InfixArith.CommandLine.Arguments
import InfixArith.Text.Field

/-!
# The report on an expression

The report has four sections: the tokens, the verdict, the derivation steps and the tree.  Without a
choice all of them are printed; with a choice only those that are asked for, and no verdict.  The
main definitions are `tokenSection`, `verdictSection`, `stepSection`, `treeSection` and `report`.
-/

namespace InfixArith.CommandLine

/-- A numbered row of a table, of a label in a column of the given width and a text. -/
def tableRow (width : Nat) (number : Nat) (label text : String) : String :=
  Text.padLeft 4 (Nat.repr number) ++ "  " ++ Text.padRight width label ++ " " ++ text ++ "\n"

/-- The rows of a table, numbered from one. -/
def tableRows {α : Type} (row : Nat → α → String) (xs : List α) : String :=
  String.join ((xs.zipIdx 1).map fun x => row x.2 x.1)

/-- A row of the token table. -/
def tokenRow (number : Nat) (t : Token) : String :=
  tableRow 10 number t.kind.label t.text

/-- A row of the table of derivation steps. -/
def stepRow (number : Nat) (s : Step) : String :=
  tableRow 18 number s.stage.label s.description

/-- The tokens as they are printed, and a table of them. -/
def tokenSection (a : Analysis) : String :=
  Token.printAll a.tokens ++ "\n" ++ tableRows tokenRow a.tokens ++ "\n"

/-- The verdict in words. -/
def verdictText (a : Analysis) : String :=
  if a.derivation.isValid then "Expression is syntactically valid"
  else "Expression is not syntactically valid"

/-- The verdict on a line of its own. -/
def verdictSection (a : Analysis) : String :=
  verdictText a ++ "\n\n"

/-- The table of derivation steps. -/
def stepSection (a : Analysis) : String :=
  tableRows stepRow a.derivation.steps ++ "\n"

/-- The drawing of the tree. -/
def treeSection (a : Analysis) : String :=
  a.derivation.tree.draw

namespace Options

/-- Whether all sections are printed because none is asked for. -/
def printsAll (options : Options) : Bool :=
  !(options.tokens || options.steps || options.tree)

end Options

/-- A section of the report, or nothing when it is not selected. -/
def sectionWhen (selected : Bool) (print : Analysis → String) (a : Analysis) : String :=
  if selected then print a else ""

/-- The selected sections. -/
def report (options : Options) (a : Analysis) : String :=
  sectionWhen (options.printsAll || options.tokens) tokenSection a ++
    sectionWhen options.printsAll verdictSection a ++
    sectionWhen (options.printsAll || options.steps) stepSection a ++
    sectionWhen (options.printsAll || options.tree) treeSection a

end InfixArith.CommandLine
