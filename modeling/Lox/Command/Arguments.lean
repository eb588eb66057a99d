import Lox.Report.Basic
import Lox.Syntax.Listing

/-!
# Command lines

A command line names a command, a file for all commands but the prompt, and a choice of style.
Options stand before or behind the file, as `--option choice` or `--option=choice`, each at most
once; behind `--` there are no options. A choice does not look like an option itself. Arguments are
read from the left, so that a request for help or for the version counts unless an argument before
it is refused.
-/

namespace Lox

/-- What to do with a source file. -/
inductive Action where
  | tokenize (style : TokenStyle)
  | parse (style : TreeStyle)
  | run (style : ReportStyle)
deriving DecidableEq

/-- What a command line asks for. -/
inductive Command where
  | file (action : Action) (path : String)
  | prompt (style : ReportStyle)
  | version
  | help
deriving DecidableEq

namespace Arguments

/-- The option that a command takes, and the choices for it. -/
structure Form (α : Type) where
  option : String
  choices : List (String × α)
  default : α
  /-- Whether the command takes a file. -/
  takesPath : Bool

/-- What has been read of the arguments of a command. -/
structure Given (α : Type) where
  path : Option String
  choice : Option α

/-- What a list of arguments comes to. -/
inductive Reading (α : Type) where
  | given (given : Given α)
  | help
  | refused

variable {α : Type}

/-- Whether an argument is a request for help by its first letter. -/
def isShortHelp (argument : String) : Bool :=
  argument.toList.take 2 = ['-', 'h']

/-- Whether an argument is meant as an option. A lone dash is not. -/
def isOption (argument : String) : Bool :=
  argument.toList.head? = some '-' ∧ argument ≠ "-"

/-- Splits an option at its first equals sign. -/
def splitChoice (argument : String) : String × Option String :=
  let cs := argument.toList
  let name := String.ofList (cs.takeWhile (· ≠ '='))
  match cs.dropWhile (· ≠ '=') with
  | [] => (name, none)
  | _ :: choice => (name, some (String.ofList choice))

/-- Takes a choice, if there is such a one and none was made before. -/
def Form.choose (form : Form α) (given : Given α) (choice : String) : Option (Given α) :=
  match given.choice, form.choices.lookup choice with
  | none, some chosen => some { given with choice := some chosen }
  | _, _ => none

/-- Takes a file, if the command takes one and none was named before. -/
def Form.name (form : Form α) (given : Given α) (path : String) : Option (Given α) :=
  if form.takesPath ∧ given.path = none ∧ path ≠ "" then some { given with path := some path }
  else none

/-- Reads arguments behind which there are no options. -/
def Form.readPlain (form : Form α) (given : Given α) : List String → Reading α
  | [] => .given given
  | argument :: rest =>
    match form.name given argument with
    | some given => form.readPlain given rest
    | none => .refused

/-- Reads the arguments of a command. -/
def Form.read (form : Form α) (given : Given α) : List String → Reading α
  | [] => .given given
  | argument :: rest =>
    if argument = "--" then form.readPlain given rest
    else if argument = "--help" ∨ isShortHelp argument then .help
    else if isOption argument then
      match splitChoice argument, rest with
      | (option, some choice), rest =>
        match (if option = form.option then form.choose given choice else none) with
        | some given => form.read given rest
        | none => .refused
      | (option, none), choice :: rest =>
        match (if option = form.option ∧ ¬ isOption choice then form.choose given choice
          else none) with
        | some given => form.read given rest
        | none => .refused
      | (_, none), [] => .refused
    else
      match form.name given argument with
      | some given => form.read given rest
      | none => .refused

/-- The command that arguments of a form stand for. -/
def Form.command? (form : Form α) (make : α → Option String → Option Command)
    (arguments : List String) : Option Command :=
  match form.read ⟨none, none⟩ arguments with
  | .given given => make (given.choice.getD form.default) given.path
  | .help => some .help
  | .refused => none

/-- The arguments of listing tokens. -/
def tokenize : Form TokenStyle :=
  ⟨"--format", [("debug", .record), ("basic", .basic), ("line", .line)], .basic, true⟩

/-- The arguments of listing trees. -/
def parse : Form TreeStyle :=
  ⟨"--format", [("debug", .record), ("sexpr", .sexpr)], .sexpr, true⟩

/-- The arguments of running a file. -/
def run : Form ReportStyle :=
  ⟨"--diagnostics", [("plain", .plain), ("pretty", .pretty)], .plain, true⟩

/-- The arguments of the prompt. -/
def prompt : Form ReportStyle :=
  { run with takesPath := false }

/-- The names of the commands. -/
def names : List String :=
  ["tokenize", "parse", "run", "repl", "help"]

end Arguments

/-- The command that a command line stands for; none if it is not understood. -/
def Command.ofArguments? : List String → Option Command
  | [] => none
  | "tokenize" :: rest =>
    Arguments.tokenize.command? (fun style => Option.map (.file (.tokenize style))) rest
  | "parse" :: rest =>
    Arguments.parse.command? (fun style => Option.map (.file (.parse style))) rest
  | "run" :: rest => Arguments.run.command? (fun style => Option.map (.file (.run style))) rest
  | "repl" :: rest => Arguments.prompt.command? (fun style _ => some (.prompt style)) rest
  | ["help"] => some .help
  | ["help", name] => if name ∈ Arguments.names then some .help else none
  | argument :: _ =>
    if argument = "--help" ∨ Arguments.isShortHelp argument then some .help
    else if argument = "--version" ∨ argument.toList.take 2 = ['-', 'V'] then some .version
    else none

end Lox
