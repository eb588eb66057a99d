import Lox.Diagnostic
import Lox.Text.Blank

/-!
# Reporters

A diagnostic is shown plain, by its text, or as a report on the part of the source that it points at.
Reports are drawn by a renderer. It gets all that there is to draw, and nothing else is known of it:
whoever makes a reporter says which renderer it has.
-/

namespace Lox

/-- How diagnostics are shown. -/
inductive ReportStyle where
  | plain
  | pretty
deriving DecidableEq

/-- What a report has to show. -/
structure Report where
  /-- The name of the source. -/
  path : String
  source : String
  color : Bool
  code : String
  message : String
  /-- A note to the place in the source. -/
  label : String
  /-- The bytes of the source that the report points at. -/
  span : Span

/-- What draws reports. -/
class Renderer where
  /-- The drawn report, if the renderer does not fail. -/
  draw (report : Report) : Option String

/-- What showing diagnostics needs to know. -/
structure Reporter where
  style : ReportStyle
  /-- The name of the source in reports. -/
  path : String
  color : Bool
  [renderer : Renderer]

/-- The part of a span that is inside a text of `size` bytes. -/
def Span.within (size : Nat) (span : Span) : Span :=
  let start := min span.start size
  ⟨start, max start (min span.stop size) - start⟩

/-- The reporter of plain diagnostics, which has nothing to draw. -/
def Reporter.plain : Reporter :=
  { style := .plain, path := "<input>", color := true, renderer := ⟨fun _ => none⟩ }

/-- The report on a diagnostic. -/
def Reporter.report (r : Reporter) (source : String) (d : Diagnostic) : Report :=
  ⟨r.path, source, r.color, d.code, d.message, d.label, d.span.within source.utf8ByteSize⟩

/-- A diagnostic as a reporter shows it: by its text if there is no report on it. -/
def Reporter.show (r : Reporter) (source : String) (d : Diagnostic) : String :=
  match r.style with
  | .plain => d.text
  | .pretty =>
    match r.renderer.draw (r.report source d) with
    | some drawn => Text.trimEnd drawn
    | none => d.text

end Lox
