import Lox.Report.Excerpt

/-!
# Drawing reports

A report shows the rows of the source that it points at, between margins, with marks below or around
the place and its label. Colours are optional; each run of symbols that belongs together is coloured
on its own.
-/

namespace Lox

namespace Report

/-- The colours of a report. -/
inductive Ink where
  | heading
  | mark
  | margin
  | gap
  | text

/-- The terminal code of a colour. -/
def Ink.code : Ink → String
  | heading => "31"
  | mark => "91"
  | margin => "38;5;246"
  | gap => "38;5;240"
  | text => "38;5;249"

/-- Text in a colour, if colours are on. -/
def paint (color : Bool) (ink : Ink) (s : String) : String :=
  if color then "\x1b[" ++ ink.code ++ "m" ++ s ++ "\x1b[0m" else s

/-- A text repeated. -/
def times (n : Nat) (s : String) : String :=
  String.join (List.replicate n s)

/-- The symbol of a column and what fills its character's further columns. -/
structure Cell where
  symbol : String
  fill : String

/-- The cells of a row, one for each place below `count`. -/
def cells (row : Row) (count : Nat) (cell : Nat → Cell) : String :=
  String.join <| (List.range count).map fun place =>
    match row.width place with
    | 0 => ""
    | width + 1 => (cell place).symbol ++ times width (cell place).fill

section

variable (color : Bool) (x : Excerpt)

/-- The digits of the greatest line number. -/
def numberWidth : Nat :=
  (Text.Record.number (x.last.index + 1)).length

/-- The margin with a line number. -/
def numbered (row : Row) : String :=
  let number := Text.Record.number (row.index + 1)
  let padding := times (numberWidth x - number.length) " "
  " " ++ paint color .margin (padding ++ number ++ " │") ++ " "

/-- The margin without a line number. -/
def unnumbered (rule : String) : String :=
  " " ++ paint color .gap (times (numberWidth x + 1) " " ++ rule) ++ " "

/-- The text of a row, the place that the report points at in the colour of marks. -/
def rowText (row : Row) : String :=
  String.join <| row.trimmed.zipIdx.map fun (c, place) =>
    let k := row.offset + place
    let ink := if x.start ≤ k ∧ k < x.stop then Ink.mark else Ink.text
    if Text.isBlank c then times (Row.charWidth place c) (paint color ink " ")
    else paint color ink (String.ofList [c])

/-- The head of a report: code and message, and where in which source. -/
def header (report : Report) : List String :=
  let indent := times (numberWidth x + 2) " "
  let place := " " ++ report.path ++ ":" ++ Text.Record.number (x.first.index + 1) ++ ":" ++
    Text.Record.number (x.start - x.first.offset + 1) ++ " "
  [paint color .heading ("[" ++ report.code ++ "] Error:") ++ " " ++ report.message,
    indent ++ paint color .margin "╭" ++ paint color .margin "─" ++ paint color .margin "[" ++
      place ++ paint color .margin "]",
    indent ++ paint color .margin "│"]

/-- The foot of a report. -/
def footer : String :=
  paint color .margin (times (numberWidth x + 2) "─" ++ "╯")

/-- The body of a report on a place within one row: the row, marks below the place, and the label
below these. -/
def inlineBody (label : String) : List String :=
  let row := x.first
  let middle := (x.start + x.stop) / 2 - row.offset
  let count := x.stop - row.offset + 2
  let covered (place : Nat) : Bool := x.start ≤ row.offset + place ∧ row.offset + place < x.stop
  let mark (s : String) : String := paint color .mark s
  let plain : Cell := ⟨" ", " "⟩
  let line : Cell := ⟨mark "─", mark "─"⟩
  let marks (place : Nat) : Cell :=
    if place = middle then
      if covered place then ⟨mark "┬", mark "─"⟩ else ⟨mark "│", mark " "⟩
    else if covered place then line
    else plain
  let arrow (place : Nat) : Cell :=
    if place = middle then ⟨mark "╰", mark "─"⟩ else if middle < place then line else plain
  [numbered color x row ++ rowText color x row,
    unnumbered color x "│" ++ cells row count marks,
    unnumbered color x "│" ++ cells row count arrow ++ " " ++ label]

/-- The body of a report on a place over several rows: the first and the last of them, joined at the
side, and the label below. -/
def spanningBody (label : String) : List String :=
  let mark (s : String) : String := paint color .mark s
  let arrow (corner : String) : String := mark corner ++ mark "─" ++ mark "▶" ++ mark " "
  let reach := (List.range (x.last.chars.length + 2)).foldl (· + x.last.width ·) 0
  let between :=
    if x.first.index + 1 < x.last.index then [unnumbered color x "┆" ++ mark "┆" ++ "   "] else []
  [numbered color x x.first ++ arrow "╭" ++ rowText color x x.first] ++ between ++
    [numbered color x x.last ++ arrow "├" ++ rowText color x x.last,
      unnumbered color x "│" ++ mark "│" ++ times (3 + reach) " ",
      unnumbered color x "│" ++ mark "╰" ++ times (3 + reach) (mark "─") ++ " " ++ label]

end

/-- The lines of a report. -/
def render (report : Report) : String :=
  let color := report.color
  let x := excerpt report
  let body :=
    if x.first.index = x.last.index then inlineBody color x report.label
    else spanningBody color x report.label
  Text.unlines (header color x report ++ body ++ [footer color x])

end Report

/-- Reports are drawn by their lines. -/
instance : Renderer where
  draw report := some report.render

end Lox
