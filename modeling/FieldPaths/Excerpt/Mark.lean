import FieldPaths.Excerpt.Place
import FieldPaths.Excerpt.Visible
import FieldPaths.Text.Blank

/-!
# Marks

A mark is a range of a text with a label. In an excerpt it shows in the lines it touches: a mark
within one line is underlined there, and one that goes over several lines is a rule at the left
that opens in the first line and closes in the last one, with the label at its close.

## Rules side by side

Rules whose lines overlap are drawn beside each other, at depths of their own. A mark that has the
range of another one has no rule of its own; only its end is underlined.

A rule does not show all lines it passes. It shows at most four lines from its start on, less those
at the end that hold nothing to read, and the last line before its close.
-/

namespace FieldPaths.Excerpt

/-- A range of bytes that an excerpt points at. -/
structure Mark where
  start : Nat
  stop : Nat
  label : String
  /-- Whether it is what the report is about, and not what the report also speaks of. -/
  isPrimary : Bool
deriving Repr, DecidableEq

/-- How a mark shows in a line. -/
inductive Role where
  /-- All of the mark is in the line. -/
  | whole
  /-- The rule at the given depth opens. -/
  | opens (depth : Nat)
  /-- The rule at the given depth goes past. -/
  | passes (depth : Nat)
  /-- The rule at the given depth closes. -/
  | closes (depth : Nat)
deriving Repr, DecidableEq

/-- What a line shows of a mark. -/
structure LineMark where
  /-- The number of the line. -/
  line : Nat
  role : Role
  /-- The first marked column. -/
  start : Nat
  /-- The column after the last marked one. -/
  stop : Nat
  /-- The number of characters before the mark in its line. -/
  char : Nat
  label : String
  isPrimary : Bool
deriving Repr, DecidableEq

namespace LineMark

/-- Whether there is a label to be shown. -/
def hasLabel (mark : LineMark) : Bool := !mark.label.isEmpty

/-- Whether the rule of the mark only goes past. -/
def isPassing (mark : LineMark) : Bool := mark.role matches .passes _

/-- Whether the rule of the mark opens in the line. -/
def isOpening (mark : LineMark) : Bool := mark.role matches .opens _

/-- The depth of the rule that opens or closes in the line. -/
def turn? (mark : LineMark) : Option Nat :=
  match mark.role with
  | .opens depth | .closes depth => some depth
  | _ => none

/-- The number of marked columns. -/
def size (mark : LineMark) : Nat := mark.stop - mark.start

/-- The column after the label where it stands beside the mark. -/
def labelStop (mark : LineMark) : Nat :=
  match mark.role with
  | .whole | .closes _ => mark.stop + widthOf mark.label.toList + 1
  | _ => mark.stop

/-- Whether two marks share a column when the first one is taken to be longer by `room`. -/
def meets (mark other : LineMark) (room : Nat) : Bool :=
  (other.start ≤ mark.start && mark.start < other.stop) ||
    (mark.start ≤ other.start && other.start < mark.stop + room)

/-- Whether two marks take the same columns. -/
def sameColumns (mark other : LineMark) : Bool :=
  mark.start == other.start && mark.stop == other.stop

end LineMark

/-! ## Rules -/

/-- A mark that goes over several lines. -/
structure RuledMark where
  start : Place
  stop : Place
  label : String
  isPrimary : Bool
  depth : Nat
  /-- Whether another mark has the same range and the rule. -/
  isShared : Bool
deriving Repr, DecidableEq

namespace RuledMark

/-- Whether two marks have the same range. -/
def sameRange (mark other : RuledMark) : Bool :=
  mark.start == other.start && mark.stop == other.stop

/-- Whether two marks have a line in common. -/
def sharesLine (mark other : RuledMark) : Bool :=
  mark.start.line ≤ other.stop.line && other.start.line ≤ mark.stop.line

/-- Makes room for a mark among those up to it: the others move one deeper where they have a line
in common with it, and give up the rule to it where they have its range. -/
def settle (mark : RuledMark) (primaries : List (Place × Place)) :
    List RuledMark → List RuledMark
  | [] => []
  | other :: more =>
    if !mark.sameRange other && mark.sharesLine other then
      { other with depth := other.depth + 1 } :: settle mark primaries more
    else if mark.sameRange other && mark ≠ other then
      { other with isShared := true } :: settle mark primaries more
    else
      let isPrimary := other.isPrimary || primaries.contains (other.start, other.stop)
      { other with isPrimary := isPrimary } :: more

/-- The marks from the one that starts first and goes farthest on. -/
def sorted (marks : List RuledMark) : List RuledMark :=
  marks.mergeSort fun a b =>
    a.start.line < b.start.line || (a.start.line == b.start.line && b.stop.line ≤ a.stop.line)

/-- Gives the marks their depths. The depths count from the outermost rule, which is the last one
to be settled. -/
def arranged (marks : List RuledMark) : List RuledMark :=
  let ordered := sorted marks
  let settled := (ordered.zipIdx.foldl (fun state (mark, index) =>
    let primaries := ((ordered.take (index + 1)).filter (·.isPrimary)).map fun m => (m.start, m.stop)
    mark.settle primaries state) ordered)
  let depth := (settled.map (·.depth)).foldl max 0
  settled.map fun mark => { mark with depth := depth - mark.depth + 1 }

/-- Whether there is something to read in a line: it is neither a comment nor blank, and not only
a bracket. -/
def isWorthShowing (line : List Char) : Bool :=
  let text := String.ofList (trimBoth line)
  !(text.startsWith "//" && !(text.startsWith "///" || text.startsWith "//!")) &&
    !(["", "\x7b", "\x7d", "(", ")", "[", "]"].contains text)

/-- The numbers of the lines that a rule is shown in between its ends. -/
def passedLines (source : SourceText) (mark : RuledMark) : List Nat :=
  let first := mark.start.line
  let last := mark.stop.line
  let middle := min (first + 4) last
  let isShown (line : Nat) : Bool := (source.line? line).any isWorthShowing
  let worth := ((List.range' first (middle - first)).filter isShown).getLast?
  let leading := List.range' (first + 1) ((worth.getD first) - first)
  if middle < last - 1 && isShown (last - 1) then leading ++ [last - 1] else leading

/-- What the lines of a text show of a mark. -/
def lineMarks (source : SourceText) (mark : RuledMark) : List LineMark :=
  let close : LineMark :=
    { line := mark.stop.line
      role := if mark.isShared then .whole else .closes mark.depth
      start := mark.stop.column - 1
      stop := mark.stop.column
      char := mark.stop.char - 1
      label := mark.label
      isPrimary := mark.isPrimary }
  if mark.isShared then [close]
  else
    ⟨mark.start.line, .opens mark.depth, mark.start.column, mark.start.column + 1, mark.start.char,
      "", mark.isPrimary⟩ ::
    (mark.passedLines source).map (⟨·, .passes mark.depth, 0, 0, 0, "", mark.isPrimary⟩) ++ [close]

end RuledMark

/-! ## Marked lines -/

/-- A line of a text with what it shows of some marks. -/
structure MarkedLine where
  number : Nat
  text : List Char
  marks : List LineMark
deriving Repr

/-- The lines of a text that show something of a mark. -/
structure MarkedText where
  lines : List MarkedLine
  /-- The number of rules side by side. -/
  depth : Nat
deriving Repr

/-- The mark as what its line shows of it, if it is all in one line, or with the places it goes
from and to. A mark takes one column at least. -/
def Mark.locate (source : SourceText) (mark : Mark) : LineMark ⊕ RuledMark :=
  let (start, stop) := source.places mark.start mark.stop
  if start.line = stop.line then
    .inl ⟨start.line, .whole, start.column,
      if start.column = stop.column then stop.column + 1 else stop.column, start.char, mark.label,
      mark.isPrimary⟩
  else .inr ⟨start, stop, mark.label, mark.isPrimary, 1, false⟩

/-- The lines of a text with what they show of some marks. -/
def MarkedText.of (source : SourceText) (marks : List Mark) : MarkedText :=
  let located := marks.map (·.locate source)
  let ruled := RuledMark.arranged (located.filterMap (·.getRight?))
  let shown := located.filterMap (·.getLeft?) ++ ruled.flatMap (·.lineMarks source)
  let lines := source.lines.filterMap fun line =>
    match shown.filter (·.line == line.number) with
    | [] => none
    | here => some ⟨line.number, line.text, here⟩
  ⟨lines, (ruled.map (·.depth)).foldl max 0⟩

/-- The line and column that a report is said to be about: the first of the leftmost primary mark
in the first line that has one. -/
def MarkedText.position? (text : MarkedText) : Option (Nat × Nat) := do
  let line ← (text.lines.find? (·.marks.any (·.isPrimary))).or text.lines.head?
  let primary := line.marks.filter (·.isPrimary)
  let marks := if primary.isEmpty then line.marks else primary
  let column ← (marks.map (·.char)).min?
  return (line.number, column + 1)

end FieldPaths.Excerpt
