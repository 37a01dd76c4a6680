import FieldPaths.Diagnostic
import FieldPaths.Excerpt.Edit

/-!
# Reports

Diagnostics as they are shown to the writer of a schema: the message, the lines it is about with
their marks, what else there is to say, and the lines a fix would lead to.

Every part has its place whatever the texts are. A place in another source is not shown but named
in a note. An empty range is shown as the character after it, where there is one. Line numbers are
as wide as the largest of the report.
-/

namespace FieldPaths.Excerpt

/-- The level that a diagnostic is reported at. -/
def Level.ofSeverity : Severity → Level
  | .error => error
  | .warning => warning

/-- Draws a titled text in new rows. Its further lines are aligned with its first one. -/
def Canvas.drawTitle (canvas : Canvas) (indent : Row) (level : Level) (wordInk textInk : Ink)
    (text : List Char) : Canvas :=
  let word := level.text.toList
  let space := List.replicate (indent.length + word.length + 2) Cell.blank
  match pieces text with
  | [] => canvas
  | first :: more =>
    let line := Row.append (Row.append indent word wordInk) (": ".toList ++ first) textInk
    canvas ++ [line] ++ more.map (Row.append space · textInk)

/-- The range of bytes that is shown for a range: an empty one is taken to hold the byte
after it. -/
def shownRange (source : SourceText) (span : Span) : Nat × Nat :=
  if span.start = span.stop then (span.start, min (span.start + 1) source.size)
  else (span.start, span.stop)

/-- The number of the last line that marks may need. -/
def lastMarkedNumber (source : SourceText) (marks : List Mark) : Nat :=
  let stop := min ((marks.map (·.stop)).foldl max 0) source.size
  max 1 (linesIn (source.slice 0 stop)).length

end FieldPaths.Excerpt

namespace FieldPaths.Diagnostic

open Excerpt

/-- What a diagnostic points at in its own source. -/
def marks (d : Diagnostic) (source : SourceText) : List Mark :=
  let mark (span : Span) (label : String) (isPrimary : Bool) : Mark :=
    let (start, stop) := shownRange source span
    ⟨start, stop, label, isPrimary⟩
  mark d.span d.message true ::
    (d.related.filter (·.span.source == d.span.source)).map (fun r => mark r.span r.message false)

/-- What is said after the excerpt: the places in other sources, then the hints. -/
def remarks (d : Diagnostic) (sources : List Source) : List (Level × String) :=
  let name (span : Span) : String := (sources[span.source]?.map (·.origin.displayName)).getD ""
  (d.related.filter (·.span.source != d.span.source)).map
      (fun r => (.note, r.message ++ " in " ++ name r.span)) ++
    d.hints.map ((.help, ·))

/-- The change that the fix of a diagnostic makes. -/
def edit? (d : Diagnostic) (source : SourceText) : Option Edit :=
  d.fix.map fun fix =>
    let (start, stop) := shownRange source d.span
    ⟨start, stop, fix.replacement.toList⟩

/-- The message of a diagnostic with the lines it is about. -/
def drawCause (d : Diagnostic) (name : String) (source : SourceText) (gutter : Nat)
    (remarks : List (Level × String)) : Canvas :=
  let text := MarkedText.of source (d.marks source)
  let layout : Layout := ⟨gutter, text.depth, ⟨0, 0, 0⟩⟩
  let layout := { layout with window := .of text.extent (terminalWidth - layout.text) }
  let canvas := Canvas.drawTitle [] [] (.ofSeverity d.severity) .level .message
    (visible d.message.toList)
  let position := match text.position? with
    | some (line, column) => s!":{line}:{column}"
    | none => ""
  let row := canvas.length
  let canvas := canvas.draw row gutter "--> ".toList .frame
  let canvas := (canvas.append row (name ++ position).toList .plain).drawEnd gutter
  let canvas := canvas.drawLines layout source [] text.lines
  let canvas := if !remarks.isEmpty || d.fix.isSome then canvas.drawEnd gutter else canvas
  let lead := List.replicate (gutter + 1) Cell.blank ++ ("= ".toList.map (⟨·, Ink.frame⟩))
  remarks.foldl (fun canvas (level, text) =>
    canvas.drawTitle lead level .message .plain text.toList) canvas

/-- A diagnostic with the lines it is about. -/
def excerpt (coloured : Bool) (sources : List Source) (d : Diagnostic) : String :=
  let own := (sources[d.span.source]?).getD ⟨.inline, ""⟩
  let source := SourceText.ofString own.text
  let edit := d.edit? source
  let last := max (lastMarkedNumber source (d.marks source))
    ((edit.map (·.lastNumber source)).getD 0)
  let gutter := (toString last).length
  let cause := d.drawCause own.origin.displayName source gutter (d.remarks sources)
  let change := match d.fix, edit with
    | some fix, some edit =>
      let title := Canvas.drawTitle [] [] .help .level .plain fix.description.toList
      [(title.drawEdit gutter source edit).text coloured .help]
    | _, _ => []
  "\n".intercalate (cause.text coloured (.ofSeverity d.severity) :: change)

/-- Diagnostics with the lines they are about, one under the other. -/
def excerpts (coloured : Bool) (sources : List Source) (ds : List Diagnostic) : String :=
  "\n".intercalate (ds.map (excerpt coloured sources))

end FieldPaths.Diagnostic
