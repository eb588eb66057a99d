import Lox.Report.Basic
import Lox.Text.Lines
import Lox.Text.Width

/-!
# Excerpts

The part of a source that a report points at, in characters and lines: the first and the last line
that the span touches.
-/

namespace Lox.Report

/-- A line of the source. -/
structure Row where
  /-- The place of the line in the source, from zero. -/
  index : Nat
  /-- The characters before the line. -/
  offset : Nat
  /-- The characters of the line with those that end it. -/
  chars : List Char

/-- What a report points at: the characters from `start` up to `stop`. -/
structure Excerpt where
  start : Nat
  stop : Nat
  first : Row
  last : Row

/-- The rows of lines, the first of which has a place and an offset. -/
def rowsFrom (index offset : Nat) : List (List Char) → List Row
  | [] => []
  | line :: later => ⟨index, offset, line⟩ :: rowsFrom (index + 1) (offset + line.length) later

/-- The last row that begins at a place or before it. -/
def rowAt (rows : List Row) (place : Nat) : Row :=
  ((rows.filter (·.offset ≤ place)).getLast?).getD ⟨0, 0, []⟩

/-- The number of characters that begin before a byte. -/
def charsBefore (cs : List Char) (byte : Nat) : Nat :=
  match cs with
  | [] => 0
  | c :: rest => if byte = 0 then 0 else charsBefore rest (byte - c.utf8Size) + 1

/-- The part of the source that a report points at. -/
def excerpt (report : Report) : Excerpt :=
  let cs := report.source.toList
  let start := charsBefore cs report.span.start
  let stop := max start (charsBefore cs report.span.stop)
  let rows := rowsFrom 0 0 (Text.lines cs)
  ⟨start, stop, rowAt rows start, rowAt rows (max (stop - 1) start)⟩

namespace Row

/-- The characters of a row without blanks at its end. -/
def trimmed (row : Row) : List Char :=
  Text.dropBlankEnd row.chars

/-- The columns that a character takes at a place in its line. Tabs reach to the next multiple of
four, counted in characters. -/
def charWidth (place : Nat) (c : Char) : Nat :=
  if c = '\t' then (place / 4 + 1) * 4 - place
  else if Text.isBlank c then 1
  else Text.width c

/-- The columns at a place in a row. Behind its text there is one at each place. -/
def width (row : Row) (place : Nat) : Nat :=
  match row.trimmed[place]? with
  | some c => charWidth place c
  | none => 1

end Row

end Lox.Report
