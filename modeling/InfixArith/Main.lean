import InfixArith.CommandLine.Run
import Std.Time.DateTime

/-!
# The program

The program analyzes the expression that its arguments hold, prints the report and the log, and
leaves the exit status of `CommandLine.run`.
-/

namespace InfixArith.CommandLine

/-- A number in decimal digits with zeros in front of it. -/
def zeroPadded (width number : Nat) : String :=
  Text.Field.apply ⟨.right, '0', width, none⟩ (Nat.repr number)

/-- A time in UTC as log lines show it, to the second. -/
def timeText (time : Std.Time.PlainDateTime) : String :=
  zeroPadded 4 time.year.toInt.toNat ++ "-" ++ zeroPadded 2 time.month.toNat ++ "-" ++
    zeroPadded 2 time.day.toNat ++ "T" ++ zeroPadded 2 time.hour.toNat ++ ":" ++
    zeroPadded 2 time.minute.toNat ++ ":" ++ zeroPadded 2 time.second.toNat ++ "Z"

/-- The text on standard error with a line end after a message that has none. -/
def closedLine (text : String) : String :=
  if text.isEmpty || text.endsWith "\n" then text else text ++ "\n"

end InfixArith.CommandLine

/-- Runs the program on the arguments. -/
def main (args : List String) : IO UInt32 := do
  let now ← Std.Time.Timestamp.now
  let time := InfixArith.CommandLine.timeText (.ofWallTime (.ofDuration now.val))
  let result := InfixArith.CommandLine.run time args
  (← IO.getStdout).putStr result.stdout
  (← IO.getStderr).putStr (InfixArith.CommandLine.closedLine result.stderr)
  return result.code.toUInt32
