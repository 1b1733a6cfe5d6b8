import Calculator.Console.Dialogue
import Std.Time.DateTime

/-!
# `Main` — the console at a terminal

The settings come from the environment. A terminal hands over whole lines, so each line is pressed key by
key and only what its last key writes is shown.
-/

namespace Calculator.Main

/-- The moment it is. -/
def now : IO Timestamp := do
  let moment := Std.Time.DateTime.ofTimestampWithZone (← Std.Time.Timestamp.now) Std.Time.TimeZone.UTC
  return {
    date := ⟨moment.year.toInt, moment.month.toNat, moment.day.toNat⟩
    clock := ⟨moment.hour.val.toNat, moment.minute.val.toNat, moment.second.val.toNat,
      moment.nanosecond.val.toNat⟩ }

/-- The settings of the environment. -/
def settings : IO Settings := do
  let values ← Settings.variableNames.mapM fun name => return (name, ← IO.getEnv name)
  return Settings.ofLookup fun name => (values.lookup name).join

/-- Hands lines to the console until there are no more or the dialogue is over. -/
partial def converse (input output : IO.FS.Stream) (console : Console) (count : Nat) : IO Unit := do
  let line ← input.getLine
  if line.isEmpty then return ()
  let stamp : Stamp := ⟨toString count, ← now⟩
  let reading := console.read (line.toList.map fun c => (stamp, Key.typing c))
  output.putStr (reading.outputs.getLast?.getD "")
  output.flush
  match reading.waiting with
  | some console => converse input output console (count + 1)
  | none => return ()

end Calculator.Main

/-- Calculates line by line. -/
def main : IO Unit := do
  let (opening, console) := Calculator.Console.start (← Calculator.Main.settings)
  let output ← IO.getStdout
  output.putStr opening
  output.flush
  Calculator.Main.converse (← IO.getStdin) output console 0
