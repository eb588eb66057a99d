/-!
# Lines of a text

A text in the sense of Unicode is broken into lines behind each line feed, vertical tab, form feed,
carriage return (with a line feed that follows it), next line, line separator and paragraph
separator.
-/

namespace Lox.Text

/-- Whether a line ends behind a character. A carriage return leaves that to a line feed. -/
def endsLine (c : Char) (rest : List Char) : Bool :=
  if c = '\r' then rest.head? ≠ some '\n'
  else
    c = '\n' ∨ c = '\x0b' ∨ c = '\x0c' ∨ c = '\u0085' ∨ c = '\u2028' ∨ c = '\u2029'

/-- Breaks a text behind the characters that end a piece, which they do depending on what follows.
No piece is empty. -/
def breakBehind (ends : Char → List Char → Bool) : List Char → List (List Char)
  | [] => []
  | c :: rest =>
    if ends c rest then [c] :: breakBehind ends rest
    else
      match breakBehind ends rest with
      | [] => [[c]]
      | piece :: later => (c :: piece) :: later

/-- The pieces of a text, put together again, are the text. -/
theorem flatten_breakBehind (ends : Char → List Char → Bool) (cs : List Char) :
    (breakBehind ends cs).flatten = cs := by
  induction cs with
  | nil => rfl
  | cons c rest ih =>
    rw [breakBehind]
    split
    · exact congrArg (c :: ·) ih
    · cases broken : breakBehind ends rest with
      | nil =>
        rw [broken] at ih
        exact congrArg (c :: ·) ih
      | cons piece later =>
        rw [broken] at ih
        exact congrArg (c :: ·) ih

/-- The lines of a text with the characters that end them. An empty text is one empty line;
otherwise no line is empty. -/
def lines (cs : List Char) : List (List Char) :=
  if cs = [] then [[]] else breakBehind endsLine cs

/-- The text that ends each of some lines with a line feed. -/
def unlines (lines : List String) : String :=
  String.join (lines.map (· ++ "\n"))

end Lox.Text
