import Lox.Text.Record
import Lox.Token.Basic

/-!
# Diagnostics

What there is to say about a mistake in a program, whichever stage found it.
-/

namespace Lox

/-- A mistake that can be pointed at in the source. -/
structure Diagnostic where
  /-- A stable code for the kind of mistake. -/
  code : String
  message : String
  /-- A note to the place in the source. -/
  label : String
  /-- The mistake on one line or two, with its line number. -/
  text : String
  line : Nat
  span : Span
deriving DecidableEq

/-- The head of the one-line form of a mistake that was found before execution. -/
def Diagnostic.heading (line : Nat) (place : String) : String :=
  "[line " ++ Text.Record.number line ++ "] Error" ++ place ++ ": "

end Lox
