import Lox.Decimal.Read
import Lox.Token.Error

/-!
# Scanning

The source is cut into pieces from the left. `munch` looks at the next character, and at most at the
ones that may continue it, and says what the piece is and how far it reaches; `scanFrom` cuts it off
and goes on behind it. Blanks and comments are pieces too, which leave no item.
-/

namespace Lox

/-- A place in the source: the bytes before it and the line it is on. -/
structure Position where
  offset : Nat
  line : Nat
deriving DecidableEq

namespace Position

/-- The beginning of a source. -/
def start : Position :=
  ⟨0, 1⟩

/-- The place behind a character. -/
def next (p : Position) (c : Char) : Position :=
  ⟨p.offset + c.utf8Size, if c = '\n' then p.line + 1 else p.line⟩

/-- The place behind a text. -/
def after (p : Position) (text : List Char) : Position :=
  text.foldl next p

end Position

/-- What a piece of the source is. -/
inductive Piece where
  /-- A blank or a comment. -/
  | gap
  /-- A punctuation mark or operator. -/
  | mark (kind : Kind)
  | number
  | string
  /-- A keyword or identifier. -/
  | word
  /-- An opening quote that no other follows. -/
  | unterminated
  /-- A character that starts no token. -/
  | unrecognized (c : Char)

namespace Piece

/-- The blanks of the language, all of them ASCII. -/
def isGap (c : Char) : Bool :=
  c = ' ' ∨ c = '\t' ∨ c = '\n' ∨ c = '\x0c' ∨ c = '\r'

/-- Whether a character can start a word. -/
def startsWord (c : Char) : Bool :=
  c.isAlpha ∨ c = '_'

/-- Whether a character can go on a word. -/
def continuesWord (c : Char) : Bool :=
  c.isAlphanum ∨ c = '_'

/-- The length of the longest run of characters with a property at the head of a text. -/
def run (p : Char → Bool) (cs : List Char) : Nat :=
  (cs.takeWhile p).length

/-- A mark that a following `=` makes a longer one. -/
def withEqual (cs : List Char) (long short : Kind) : Piece × Nat :=
  if cs.head? = some '=' then (mark long, 1) else (mark short, 0)

/-- The number of characters after the first digit of a number. A point belongs to the number only
when a digit follows it. -/
def numberTail (cs : List Char) : Nat :=
  let whole := run Char.isDigit cs
  match cs.drop whole with
  | '.' :: d :: rest =>
    if d.isDigit then whole + 2 + run Char.isDigit rest else whole
  | _ => whole

/-- What the piece that starts with `c` is, and how many of the characters `cs` belong to it. -/
def munch (c : Char) (cs : List Char) : Piece × Nat :=
  match c with
  | '(' => (mark .leftParen, 0)
  | ')' => (mark .rightParen, 0)
  | '{' => (mark .leftBrace, 0)
  | '}' => (mark .rightBrace, 0)
  | ',' => (mark .comma, 0)
  | '.' => (mark .dot, 0)
  | '-' => (mark .minus, 0)
  | '+' => (mark .plus, 0)
  | ';' => (mark .semicolon, 0)
  | '*' => (mark .star, 0)
  | '!' => withEqual cs .bangEqual .bang
  | '=' => withEqual cs .equalEqual .equal
  | '<' => withEqual cs .lessEqual .less
  | '>' => withEqual cs .greaterEqual .greater
  | '/' => if cs.head? = some '/' then (gap, run (· ≠ '\n') cs) else (mark .slash, 0)
  | '"' =>
    let inside := run (· ≠ '"') cs
    if cs.drop inside = [] then (unterminated, inside) else (string, inside + 1)
  | c =>
    if c.isDigit then (number, numberTail cs)
    else if startsWord c then (word, run continuesWord cs)
    else if isGap c then (gap, 0)
    else (unrecognized c, 0)

/-- The item that a piece leaves. Its line is the one on which the piece ends. -/
def item? (piece : Piece) (text : List Char) (start stop : Position) : Option Item :=
  let lexeme := String.ofList text
  let span : Span := ⟨start.offset, stop.offset - start.offset⟩
  let token (kind : Kind) (literal : Option Literal) : Option Item :=
    some (.ok ⟨kind, lexeme, literal, stop.line, span⟩)
  match piece with
  | gap => none
  | mark kind => token kind none
  | number => token .number (some (.number (Decimal.literal text)))
  | string => token .string (some (.string (String.ofList text.tail.dropLast)))
  | word => token (Kind.ofWord lexeme) none
  | unterminated => some (.error ⟨.unterminatedString, stop.line, span⟩)
  | unrecognized c => some (.error ⟨.unrecognized c, stop.line, span⟩)

end Piece

/-- The items of a source from a place on, the last one the end mark. -/
def scanFrom (p : Position) : List Char → List Item
  | [] => [.ok (Token.endMark p.line p.offset)]
  | c :: cs =>
    let (piece, n) := Piece.munch c cs
    let text := c :: cs.take n
    let q := p.after text
    match piece.item? text p q with
    | none => scanFrom q (cs.drop n)
    | some item => item :: scanFrom q (cs.drop n)
termination_by cs => cs.length
decreasing_by all_goals (simp only [List.length_drop, List.length_cons]; omega)

/-- The items of a source. -/
def scan (source : String) : List Item :=
  scanFrom .start source.toList

end Lox
