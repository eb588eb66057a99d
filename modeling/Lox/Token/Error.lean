import Lox.Diagnostic
import Lox.Text.Quoted
import Lox.Token.Basic

/-!
# Lexical errors

A piece of the source that is not a token is reported and passed over, so that scanning always
reaches the end.
-/

namespace Lox

/-- Why a piece of the source is not a token. -/
inductive LexicalCause where
  | unrecognized (c : Char)
  | unterminatedString
deriving DecidableEq

namespace LexicalCause

/-- The stable code of a cause. -/
def code : LexicalCause → String
  | unrecognized _ => "LX001"
  | unterminatedString => "LX002"

/-- The message for a cause. -/
def message : LexicalCause → String
  | unrecognized _ => "Unexpected character."
  | unterminatedString => "Unterminated string."

/-- The note to the place of a cause. -/
def label : LexicalCause → String
  | unrecognized c => Text.quoteChar c ++ " does not start any token"
  | unterminatedString => "string starts here"

end LexicalCause

/-- A piece of the source that is not a token. Its line is the one on which it ends. -/
structure LexicalError where
  cause : LexicalCause
  line : Nat
  span : Span
deriving DecidableEq

/-- The error on one line. -/
def LexicalError.text (e : LexicalError) : String :=
  Diagnostic.heading e.line "" ++ e.cause.message

/-- What there is to say about the error. -/
def LexicalError.diagnostic (e : LexicalError) : Diagnostic :=
  ⟨e.cause.code, e.cause.message, e.cause.label, e.text, e.line, e.span⟩

/-- A result of scanning: a token, or a piece that is none. -/
abbrev Item := Except LexicalError Token

/-- The tokens among scanned items. -/
def Item.tokens (items : List Item) : List Token :=
  items.filterMap fun
    | .ok token => some token
    | .error _ => none

/-- The errors among scanned items. -/
def Item.errors (items : List Item) : List LexicalError :=
  items.filterMap fun
    | .ok _ => none
    | .error error => some error

end Lox
