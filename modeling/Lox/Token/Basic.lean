import Lox.Token.Kind

/-!
# Tokens

A token is a piece of the source with its kind, its text, the value it carries if it is a number or
a string, the line on which it ends and the bytes it covers.
-/

namespace Lox

/-- A range of bytes of the source. -/
structure Span where
  start : Nat
  length : Nat
deriving DecidableEq

/-- The byte after the last one of a span. -/
def Span.stop (s : Span) : Nat :=
  s.start + s.length

/-- The value that a number or string token carries. -/
inductive Literal where
  | number (x : Float)
  | string (s : String)
deriving DecidableEq

/-- A classified, positioned piece of the source. -/
structure Token where
  kind : Kind
  /-- The text of the source that the token covers. -/
  lexeme : String
  literal : Option Literal
  line : Nat
  span : Span
deriving DecidableEq

/-- The mark of the end of a source. -/
def Token.endMark (line offset : Nat) : Token :=
  ⟨.eof, "", none, line, ⟨offset, 0⟩⟩

end Lox
