import Lox.Fault
import Lox.Machine.Evaluate
import Lox.Report.Basic
import Lox.Syntax.Program
import Lox.Text.Lines
import Lox.Token.Scan

/-!
# Sessions

A session runs sources one after another on one machine, so that later ones see what earlier ones
defined. A source with a fault that scanning or parsing finds is not executed, nor is any later one
until the fault is forgiven.
-/

namespace Lox

/-- How a run ends. -/
inductive Status where
  | success
  | staticError
  | runtimeError
deriving DecidableEq

/-- The exit code for a status. -/
def Status.exitCode : Status → Nat
  | success => 0
  | staticError => 65
  | runtimeError => 70

/-- The program in a source, and the faults of the source: those of scanning before those of
parsing. -/
def Program.ofSource (source : String) : Program × List Fault :=
  let items := scan source
  let (program, errors) := Program.parse (Item.tokens items)
  (program, (Item.errors items).map .lexical ++ errors.map .grammatical)

/-- What outlives a run. -/
structure Session where
  machine : Machine
  /-- The faults reported, each with the source against which it was. -/
  reported : Array (String × Fault)
  reporter : Reporter
  /-- Whether a source had a fault before execution that was not yet forgiven. -/
  hadError : Bool
  hadRuntimeError : Bool

namespace Session

/-- A session in which nothing has run. -/
def new (reporter : Reporter) : Session :=
  ⟨.initial, #[], reporter, false, false⟩

/-- Forgives the faults of earlier sources. -/
def forgive (s : Session) : Session :=
  { s with hadError := false }

/-- Forgets what was printed and reported. -/
def clear (s : Session) : Session :=
  { s with machine := { s.machine with printed := #[] }, reported := #[] }

/-- The printed text. -/
def output (s : Session) : String :=
  Text.unlines s.machine.lines

/-- The text of the reports. -/
def errors (s : Session) : String :=
  Text.unlines <| s.reported.toList.map fun (source, fault) =>
    s.reporter.show source fault.diagnostic

/-- Reports the faults of a source, which is then not forgiven if it has any. -/
def report (source : String) (faults : List Fault) (s : Session) : Session :=
  { s with
    reported := s.reported ++ (faults.map (source, ·)).toArray
    hadError := s.hadError || !faults.isEmpty }

/-- Runs a source: reports its faults, and executes it if neither it nor an earlier source has an
unforgiven one. There is no result when the fuel does not suffice. -/
def run (clock : Clock) (fuel : Nat) (source : String) (s : Session) : Option (Status × Session) :=
  let (program, faults) := Program.ofSource source
  let ⟨machine, reported, reporter, hadError, hadRuntimeError⟩ := s.report source faults
  if hadError then some (.staticError, ⟨machine, reported, reporter, hadError, hadRuntimeError⟩)
  else
    match machine.interpret clock fuel program with
    | .ok _ machine => some (.success, ⟨machine, reported, reporter, hadError, hadRuntimeError⟩)
    | .error e machine =>
      some (.runtimeError, ⟨machine, reported.push (source, .runtime e), reporter, hadError, true⟩)
    | .exhausted => none

end Session

end Lox
