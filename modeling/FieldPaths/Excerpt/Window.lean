/-!
# The window on long lines

Lines that are longer than the room for them are shown in part. The window is one for all lines of
an excerpt. Blanks that all lines start with are given up first, where there are many; then the
window is laid so that it shows the marked columns with their labels, if they fit, or
the marked columns alone.

The room is as wide as a terminal of 140 columns leaves it.
-/

namespace FieldPaths.Excerpt

/-- The width that excerpts are laid out for. -/
def terminalWidth : Nat := 140

/-- The columns kept free beside the marked ones for the dots that stand for what is not shown. -/
def dotsRoom : Nat := 6

/-- What is shown for text that is not. -/
def dots : List Char := ['.', '.', '.']

/-- The columns of an excerpt's lines that matter for its window. -/
structure Extent where
  /-- The blanks that all lines start with. -/
  indent : Nat
  /-- The first marked column. -/
  markStart : Nat
  /-- The column after the last marked one. -/
  markStop : Nat
  /-- The column after the labels beside the marks. -/
  labelStop : Nat
  /-- The width of the widest line. -/
  lineWidth : Nat
deriving Repr, DecidableEq

/-- The columns that are shown. -/
structure Window where
  start : Nat
  stop : Nat
  /-- The room for a line. -/
  room : Nat
deriving Repr, DecidableEq

namespace Window

/-- The window for lines of the given extent. -/
def of (extent : Extent) (room : Nat) : Window :=
  let indent := extent.indent - dotsRoom
  let markStart := extent.markStart - dotsRoom
  let markStop := extent.markStop + dotsRoom
  let labelStop := extent.labelStop + dotsRoom
  -- an indentation of more than twenty columns is cut down to four and the dots
  let start := if 20 < indent then indent - 16 else 0
  let stop := max extent.lineWidth start
  if stop - start ≤ room then ⟨start, stop, room⟩
  else if labelStop - indent ≤ room then ⟨indent, indent + room, room⟩
  else if labelStop - markStart ≤ room then
    let start := markStart - (room - (labelStop - markStart)) / 2
    ⟨start, start + room, room⟩
  else if markStop - markStart ≤ room then
    let start := markStart - (room - (markStop - markStart)) / 5 * 2
    ⟨start, start + room, room⟩
  else ⟨markStart, markStop, room⟩

/-- The first column shown of a line of the given width. -/
def startFor (window : Window) (width : Nat) : Nat := min window.start width

/-- The column after the last one shown of a line of the given width. -/
def stopFor (window : Window) (width : Nat) : Nat :=
  if width - window.start ≤ window.room then width else min width window.stop

end Window

end FieldPaths.Excerpt
