import Lox.Command.Execute
import Std.Time.DateTime.Timestamp

/-!
# The command line program

Reads files and standard input, and writes what the commands leave.
-/

namespace Lox.Main

/-- More steps than any program takes. -/
def fuel : Nat := 1 <<< 62

/-- The host clock from now on. It goes on a little at each reading. -/
def clock : IO Clock := do
  let now ← Std.Time.Timestamp.now
  let seconds := Float.ofInt now.toMillisecondsSinceUnixEpoch.val / 1000
  return fun reading => seconds + reading.toFloat / 8192

/-- Writes what a command leaves. -/
def write (output : Output) : IO Unit := do
  let stdout ← IO.getStdout
  stdout.putStr output.stdout
  stdout.flush
  (← IO.getStderr).putStr output.stderr

/-- Writes what a command leaves, if it has ended, and gives its exit code. -/
def finish (output? : Option Output) : IO UInt32 := do
  let some output := output? | throw (IO.userError "out of fuel")
  write output
  return output.exitCode.toUInt32

/-- Reads lines and runs them until the input ends. -/
partial def prompt (s : Session) : IO Unit := do
  let stdout ← IO.getStdout
  stdout.putStr Prompt.mark
  stdout.flush
  let line ← (← IO.getStdin).getLine
  if line.isEmpty then stdout.putStr Prompt.farewell
  else
    match Prompt.answer (← clock) fuel line s with
    | some (output, s) =>
      write output
      prompt s
    | none => throw (IO.userError "out of fuel")

/-- Reads a file, if it can be read. -/
def read? (path : String) : IO (Option String) := do
  try return some (← IO.FS.readFile path) catch _ => return none

/-- Executes a command line. -/
def run (arguments : List String) : IO UInt32 := do
  match Command.ofArguments? arguments with
  | some (.prompt style) =>
    prompt (Prompt.start style)
    return 0
  | some (.file action path) =>
    let source? ← read? path
    finish ((Command.file action path).execute (← clock) fuel (fun _ => source?) "")
  | _ => finish (Command.ofLine (← clock) fuel (fun _ => none) "" arguments)

end Lox.Main

/-- The entry of the program. -/
def main (arguments : List String) : IO UInt32 :=
  Lox.Main.run arguments
