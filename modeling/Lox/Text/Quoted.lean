import Lox.Text.Extending
import Lox.Text.Printable

/-!
# Quoted text

Strings and characters in listings stand between delimiters. A backslash marks the delimiter, itself
and the named control characters; other characters that would not show as themselves are written by
code point.
-/

namespace Lox.Text

/-- Writes a character by its code point. -/
def codePoint (c : Char) : List Char :=
  ['\\', 'u', '{'] ++ Nat.toDigits 16 c.toNat ++ ['}']

/-- Writes one character between delimiters. -/
def escape (delimiter c : Char) : List Char :=
  if c = '\x00' then ['\\', '0']
  else if c = '\t' then ['\\', 't']
  else if c = '\r' then ['\\', 'r']
  else if c = '\n' then ['\\', 'n']
  else if c = '\\' ∨ c = delimiter then ['\\', c]
  else if isExtending c ∨ ¬ isPrintable c then codePoint c
  else [c]

/-- Writes characters between delimiters. -/
def quote (delimiter : Char) (cs : List Char) : String :=
  String.ofList (delimiter :: cs.flatMap (escape delimiter) ++ [delimiter])

/-- A string in double quotes. -/
def quoteString (s : String) : String :=
  quote '"' s.toList

/-- A character in single quotes. -/
def quoteChar (c : Char) : String :=
  quote '\'' [c]

end Lox.Text
