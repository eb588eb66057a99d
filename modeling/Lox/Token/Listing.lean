import Lox.Decimal.Layout
import Lox.Token.Error

/-!
# Token listings

Three ways to write an item on a line: kind, text and value; the same behind the line number; and
record notation.
-/

namespace Lox

open Text

/-- How tokens are listed. -/
inductive TokenStyle where
  | basic
  | line
  | record
deriving DecidableEq

/-- A literal by its value. -/
def Literal.text : Literal → String
  | .number x => Decimal.Layout.listed.text x
  | .string s => s

/-- A token by kind, lexeme and value. -/
def Token.text (t : Token) : String :=
  let value := match t.literal with
    | none => "null"
    | some literal => literal.text
  t.kind.name ++ " " ++ t.lexeme ++ " " ++ value

/-- A span in record notation. -/
def Span.record (s : Span) : String :=
  Record.fields "Span" [("start", Record.number s.start), ("length", Record.number s.length)]

/-- A literal in record notation. -/
def Literal.record : Literal → String
  | .number x => Record.tuple "Number" [Decimal.Layout.listed.text x]
  | .string s => Record.tuple "String" [quoteString s]

/-- A token in record notation. -/
def Token.record (t : Token) : String :=
  Record.fields "Token"
    [("kind", t.kind.recordName), ("lexeme", quoteString t.lexeme),
      ("literal", Record.optional (t.literal.map Literal.record)), ("line", Record.number t.line),
      ("span", t.span.record)]

/-- A cause in record notation. -/
def LexicalCause.record : LexicalCause → String
  | unrecognized c => Record.tuple "Unrecognized" [quoteChar c]
  | unterminatedString => "UnclosedString"

/-- An error in record notation. -/
def LexicalError.record (e : LexicalError) : String :=
  Record.fields "LexicalError"
    [("kind", e.cause.record), ("line", Record.number e.line), ("span", e.span.record)]

/-- An item on a line. -/
def TokenStyle.text : TokenStyle → Item → String
  | basic, .ok token => token.text
  | basic, .error error => error.text
  | line, .ok token => "(" ++ Record.number token.line ++ ") " ++ token.text
  | line, .error error =>
    "(" ++ Record.number error.line ++ ") ERROR " ++ error.cause.code ++ " " ++ error.cause.message
  | record, .ok token => token.record
  | record, .error error => error.record

end Lox
