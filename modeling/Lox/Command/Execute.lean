import Lox.Command.Arguments
import Lox.Report.Render
import Lox.Session

/-!
# Executing commands

What a command writes to standard output and standard error, and its exit code. A file that cannot
be read, as well as a command line that is not understood, has an exit code of its own.
-/

namespace Lox

/-- What a command leaves. -/
structure Output where
  exitCode : Nat
  stdout : String
  stderr : String

namespace Output

/-- The exit code when a file cannot be read. -/
def unreadable : Nat := 1

/-- The exit code when a command line is not understood. -/
def misused : Nat := 2

/-- How to use the program. -/
def usage : String :=
  Text.unlines
    ["Usage: treelox <COMMAND>", "",
      "Commands:",
      "  tokenize <PATH> [--format debug|basic|line]   Print the tokens of a source file",
      "  parse <PATH> [--format debug|sexpr]           Print the syntax tree of a source file",
      "  run <PATH> [--diagnostics plain|pretty]       Run a source file",
      "  repl [--diagnostics plain|pretty]             Start an interactive prompt"]

/-- The name and number of the program. -/
def version : String :=
  "treelox 1.0.0\n"

end Output

/-- What a session has printed and shown. -/
def Session.transcript (status : Status) (s : Session) : Output :=
  ⟨status.exitCode, s.output, s.errors⟩

/-- Lists the tokens of a source, with the errors apart. -/
def TokenStyle.list (style : TokenStyle) (source : String) : Output :=
  let items := scan source
  let errors := Item.errors items
  let status := if errors = [] then Status.success else .staticError
  ⟨status.exitCode, Text.unlines ((Item.tokens items).map fun token => style.text (.ok token)),
    Text.unlines (errors.map fun error => style.text (.error error))⟩

/-- Lists the statements of a source, or else its faults. -/
def TreeStyle.list (style : TreeStyle) (source : String) : Output :=
  let (program, faults) := Program.ofSource source
  if faults.isEmpty then
    ⟨Status.success.exitCode, Text.unlines (program.map (Stmt.text style)), ""⟩
  else ⟨Status.staticError.exitCode, "", Text.unlines (faults.map (·.diagnostic.text))⟩

/-- What an action leaves of a source. There is no result when the fuel does not suffice. -/
def Action.execute (clock : Clock) (fuel : Nat) (path source : String) : Action → Option Output
  | .tokenize style => some (style.list source)
  | .parse style => some (style.list source)
  | .run style =>
    ((Session.new ⟨style, path, true⟩).run clock fuel source).map fun (status, s) =>
      s.transcript status

namespace Prompt

/-- The session of a prompt. -/
def start (style : ReportStyle) : Session :=
  .new ⟨style, Reporter.plain.path, Reporter.plain.color⟩

/-- What is written before a line is read. -/
def mark : String := "> "

/-- What is written when the input has ended. -/
def farewell : String := "\n"

/-- Runs a line and forgives its faults. The output is that of the line alone. -/
def answer (clock : Clock) (fuel : Nat) (line : String) (s : Session) :
    Option (Output × Session) :=
  (s.clear.run clock fuel line).map fun (status, s) => (s.transcript status, s.forgive)

/-- What is written for some lines up to the end of the input. -/
def transcript (clock : Clock) (fuel : Nat) (s : Session) : List String → Option Output
  | [] => some ⟨Status.success.exitCode, mark ++ farewell, ""⟩
  | line :: rest => do
    let (now, s) ← answer clock fuel line s
    let later ← transcript clock fuel s rest
    return ⟨later.exitCode, mark ++ now.stdout ++ later.stdout, now.stderr ++ later.stderr⟩

/-- The lines of an input, each with the line feed that ends it. -/
def inputLines (input : String) : List String :=
  (Text.breakBehind (fun c _ => c = '\n') input.toList).map String.ofList

end Prompt

/-- What a command leaves, given how files are read and what stands on standard input. -/
def Command.execute (clock : Clock) (fuel : Nat) (read : String → Option String) (stdin : String) :
    Command → Option Output
  | .file action path =>
    match read path with
    | some source => action.execute clock fuel path source
    | none => some ⟨Output.unreadable, "", "Failed to read " ++ path ++ "\n"⟩
  | .prompt style =>
    Prompt.transcript clock fuel (Prompt.start style) (Prompt.inputLines stdin)
  | .version => some ⟨Status.success.exitCode, Output.version, ""⟩
  | .help => some ⟨Status.success.exitCode, Output.usage, ""⟩

/-- What a command line leaves. -/
def Command.ofLine (clock : Clock) (fuel : Nat) (read : String → Option String) (stdin : String)
    (arguments : List String) : Option Output :=
  match Command.ofArguments? arguments with
  | some command => command.execute clock fuel read stdin
  | none => some ⟨Output.misused, "", Output.usage⟩

end Lox
