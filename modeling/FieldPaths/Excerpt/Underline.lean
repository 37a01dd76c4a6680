import FieldPaths.Excerpt.Canvas
import FieldPaths.Excerpt.Mark
import FieldPaths.Excerpt.Window

/-!
# Underlined lines

Draws a line of source with its marks beneath it. The row under the line holds the underlines and,
where there is room for it, the label of the rightmost mark. The other labels hang below, each from
the start of its mark.

## The rows of labels

Marks are taken from right to left and each is given a row: `0` for a label beside its underline
and `n` for one that hangs. A label goes one row down where it would run into a mark that was
not taken yet, or into that mark's label. A rule that opens or closes in the line
takes its row up to the left, so no label shares it.
-/

namespace FieldPaths.Excerpt

/-! ## Where labels go -/

namespace LineMark

/-- Whether the rightmost label is pushed down by a mark to the left of it that it meets. A mark of
the same columns without a label does not push it. -/
def isPushedBy (mark other : LineMark) : Bool :=
  mark.hasLabel && other.meets mark 0 && !(other.sameColumns mark && !other.hasLabel)

/-- Whether a mark in the given row leaves no room there for a mark to the left of it. -/
def crowds (mark other : LineMark) (row : Nat) : Bool :=
  let meets := other.meets mark (other.label.utf8ByteSize + 2)
  let turns := mark.turn?.isSome
  (meets && mark.hasLabel && other.hasLabel) || (turns && other.hasLabel) ||
    (mark.hasLabel && other.turn?.isSome) || (turns && other.turn?.isSome) ||
    (meets && other.stop ≤ mark.stop && other.hasLabel && row == 0)

/-- The rows of marks in the order they are taken, the first of which has at least the given
row. -/
def rowsFrom (row : Nat) : List LineMark → List (Nat × LineMark)
  | [] => []
  | mark :: more =>
    let own := if row == 0 && more.any (mark.isPushedBy ·) then 1 else row
    (own, mark) :: rowsFrom (if more.any (mark.crowds · own) then own + 1 else own) more

/-- The marks of a line from right to left. -/
def fromRight (marks : List LineMark) : List LineMark :=
  marks.mergeSort fun a b => b.start ≤ a.start

/-- The rows of the marks of a line, and the number of rows below the underlines. Where rules only
open, the leftmost is the topmost. -/
def rows (marks : List LineMark) : List (Nat × LineMark) × Nat :=
  let rows := rowsFrom 0 (fromRight marks)
  let last := (rows.map (·.1)).foldl max 0
  let count := if last = 0 then 0 else last + 1
  if !rows.isEmpty && marks.all (·.isOpening) then
    (rows.map fun (row, mark) => (last - row, mark), count - 1)
  else (rows, count)

/-- Whether the mark at a position from the right must be shown whole, because it meets others. -/
def isShownWhole (marks : List LineMark) (position : Nat) : Bool :=
  match position, fromRight marks with
  | 0, mark :: next :: more => !mark.isPushedBy next && more.any (·.meets mark 0)
  | 1, _ :: mark :: more => more.any (·.meets mark 0)
  | 0, _ | 1, _ => false
  | _, _ => true

/-- The ink of a mark. -/
def ink (mark : LineMark) : Ink := if mark.isPrimary then .primary else .secondary

/-- The character that a mark is underlined with. -/
def underline (mark : LineMark) : Char := if mark.isPrimary then '^' else '-'

end LineMark

/-! ## Drawing -/

/-- The columns of an excerpt. -/
structure Layout where
  /-- The width of the line numbers. -/
  gutter : Nat
  /-- The number of rules side by side. -/
  depth : Nat
  window : Window
deriving Repr

namespace Layout

/-- The column of the bar between the numbers and the source. -/
def bar (layout : Layout) : Nat := layout.gutter + 1

/-- The column before the outermost rule. -/
def rules (layout : Layout) : Nat := layout.gutter + 3

/-- The column that source text starts in. -/
def text (layout : Layout) : Nat :=
  layout.rules + if layout.depth = 0 then 0 else layout.depth + 1

/-- The column of the rule at a depth. -/
def rule (layout : Layout) (depth : Nat) : Nat := layout.rules + depth - 1

end Layout

/-- A line number, aligned to the right. -/
def numberText (width number : Nat) : List Char :=
  let digits := (toString number).toList
  List.replicate (width - digits.length) ' ' ++ digits

/-- What is left of a text without its first columns, and the number of columns given up: more than
were asked for where a wide character lies on the border. -/
def dropColumns (columns : Nat) : List Char → List Char × Nat
  | [] => ([], 0)
  | c :: cs =>
    if columns = 0 then (c :: cs, 0)
    else
      let (rest, dropped) := dropColumns (columns - charWidth c) cs
      (rest, dropped + charWidth c)

/-- The characters that fit in some columns. -/
def takeColumns (columns : Nat) : List Char → List Char
  | [] => []
  | c :: cs => if charWidth c ≤ columns then c :: takeColumns (columns - charWidth c) cs else []

/-- The number of characters that have to go for some columns to be free, and their width. -/
def coverColumns (columns : Nat) : List Char → Nat × Nat
  | [] => (0, 0)
  | c :: cs =>
    if columns ≤ charWidth c then (1, charWidth c)
    else
      let (count, width) := coverColumns (columns - charWidth c) cs
      (count + 1, width + charWidth c)

namespace Canvas

/-- Draws the number of a line and the bar after it. -/
def drawNumber (canvas : Canvas) (layout : Layout) (row number : Nat) : Canvas :=
  (canvas.draw row 0 (numberText layout.gutter number) .frame).draw row layout.bar ['|'] .frame

/-- Draws what the window shows of a line of source in a new row. The second result is the column
of the source that the text column shows. -/
def drawSource (canvas : Canvas) (layout : Layout) (number : Nat) (line : List Char) :
    Canvas × Nat :=
  let row := canvas.length
  let shown := visible line
  let width := widthOf shown
  let left := layout.window.startFor width
  let right := layout.window.stopFor width
  let (rest, dropped) := dropColumns left shown
  let code := takeColumns (right - left) rest
  let isCut := 0 < layout.window.start
  let (covered, coverWidth) := if isCut then coverColumns dots.length code else (0, 0)
  let more := code.drop covered
  let canvas := canvas.draw row layout.text code .plain
  let canvas := if isCut then canvas.draw row layout.text dots .frame else canvas
  let canvas := canvas.draw row (layout.text + coverWidth) more .plain
  let canvas :=
    if right < width then
      let back := (coverColumns dots.length code.reverse).1
      canvas.draw row (layout.text + coverWidth + more.length - back) dots .frame
    else canvas
  (canvas.drawNumber layout row number, max left dropped - (coverWidth - dots.length))

/-- Draws the rules that go past some rows. -/
def drawRules (canvas : Canvas) (layout : Layout) (rules : List (Nat × Ink)) (start stop : Nat) :
    Canvas :=
  rules.foldl (fun canvas (depth, ink) => canvas.column start stop (layout.rule depth) '|' ink)
    canvas

/-- Draws the marks of the line in the given row. `left` is the column of the source that the text
column shows. -/
def drawMarks (canvas : Canvas) (layout : Layout) (row left : Nat) (marks : List LineMark) :
    Canvas :=
  let (rows, count) := LineMark.rows marks
  let columnOf (column : Nat) : Nat := layout.text + column - left
  -- the bars before the rows
  let canvas := canvas.column (row + 1) (row + count + 2) layout.bar '|' .frame
  -- the lines that lead from rules to their ends
  let canvas := rows.foldl (fun canvas (own, mark) =>
    match mark.turn? with
    | some depth =>
      let column := layout.rules + depth
      canvas.draw (row + own + 1) column (List.replicate (columnOf mark.start - column) '_') mark.ink
    | none => canvas) canvas
  -- the lines that labels hang from, and the rules beside the rows
  let canvas := rows.foldl (fun canvas (own, mark) =>
    let canvas :=
      if 0 < own && (mark.hasLabel || mark.turn?.isSome) then
        canvas.column (row + 1) (row + own + 2) (columnOf mark.start) '|' mark.ink
      else canvas
    match mark.role with
    | .opens depth =>
      let column := layout.rule depth
      (canvas.draw (row + own + 1) column [' '] mark.ink).column (row + own + 2) (row + count + 2)
        column '|' mark.ink
    | .closes depth => canvas.column row (row + own + 2) (layout.rule depth) '|' mark.ink
    | _ => canvas) canvas
  -- the labels
  let canvas := rows.foldl (fun canvas (own, mark) =>
    if own = 0 then
      let gap := if mark.stop = 0 then 2 else 1
      canvas.draw (row + 1) (layout.text + (mark.stop + gap - left)) mark.label.toList mark.ink
    else canvas.draw (row + own + 2) (layout.text + (mark.start - left)) mark.label.toList mark.ink)
    canvas
  -- the underlines, the shortest on top and of two that are equal the primary one
  let ordered := rows.mergeSort fun (_, a) (_, b) =>
    b.size < a.size || (a.size == b.size && (!a.isPrimary || b.isPrimary))
  let canvas := ordered.foldl (fun canvas (own, mark) =>
    let canvas := (List.range' mark.start mark.size).foldl (fun canvas column =>
      canvas.draw (row + 1) (columnOf column) [mark.underline] mark.ink) canvas
    if mark.turn?.isSome || (0 < own && mark.hasLabel) then
      canvas.draw (row + 1) (columnOf mark.start) [mark.underline] mark.ink
    else canvas) canvas
  -- a mark of more than two windows loses its middle
  let room := layout.window.room
  let pad := max (room / 3) 5
  ordered.zipIdx.foldl (fun canvas ((_, mark), position) =>
    if mark.role == .whole && !LineMark.isShownWhole marks position &&
        max (room * 2) 10 < mark.size then
      let cut (canvas : Canvas) (row : Nat) : Canvas :=
        canvas.atRow row (·.cut (mark.start + pad) (mark.stop - pad) dots)
      cut (cut canvas row) (row + 1)
    else canvas) canvas

end Canvas

/-- Whether the marks of a line are drawn without underlines: rules only open or go past, and
nothing but blanks is before the first marked column of those that open. -/
def opensAtFront (line : MarkedLine) : Bool :=
  line.marks.all fun mark =>
    mark.isPassing ||
      (mark.isOpening && ((visible line.text).take mark.start).all isBlank)

/-- Draws a marked line. The second result says which rules open or close in it. -/
def Canvas.drawLine (canvas : Canvas) (layout : Layout) (line : MarkedLine) :
    Canvas × List (Nat × Ink) :=
  let row := canvas.length
  let (canvas, left) := canvas.drawSource layout line.number line.text
  let turns := line.marks.filterMap fun mark => mark.turn?.map (·, mark.ink)
  if opensAtFront line then
    (turns.foldl (fun canvas (depth, ink) => canvas.draw row (layout.rule depth) ['/'] ink) canvas,
      turns)
  else (canvas.drawMarks layout row left line.marks, turns)

/-- The rules that go on after a line in which some open or close. -/
def rulesAfter (rules turns : List (Nat × Ink)) : List (Nat × Ink) :=
  rules.filter (fun rule => !turns.any (·.1 == rule.1)) ++
    turns.filter fun turn => !rules.any (·.1 == turn.1)

/-- Draws marked lines under each other. Of the lines between two of them one alone is shown, and
dots stand for more. -/
def Canvas.drawLines (canvas : Canvas) (layout : Layout) (source : SourceText)
    (rules : List (Nat × Ink)) : List MarkedLine → Canvas
  | [] => canvas
  | line :: more =>
    let row := canvas.length
    let (canvas, turns) := canvas.drawLine layout line
    let staying := rules.filter fun rule => !turns.any (·.1 == rule.1)
    let canvas := canvas.drawRules layout staying row canvas.length
    let after := rulesAfter rules turns
    let row := canvas.length
    let canvas := match more with
      | [] => canvas
      | next :: _ =>
        if next.number = line.number + 2 then
          (canvas.drawSource layout (line.number + 1)
            ((source.line? (line.number + 1)).getD [])).1
        else if line.number + 2 < next.number then canvas.draw row 0 dots .frame
        else canvas
    let canvas := if row < canvas.length then canvas.drawRules layout after row canvas.length
      else canvas
    canvas.drawLines layout source after more

/-! ## The window of marked lines -/

/-- The columns of the blanks that lines with text in them all start with. A blank takes one column,
but a tab four. -/
def commonIndent (lines : List (List Char)) : Nat :=
  let indent (line : List Char) : Nat :=
    ((line.takeWhile isBlank).map fun c => if c == '\t' then 4 else 1).foldr (· + ·) 0
  (((lines.filter (!·.all isBlank)).map indent).min?).getD 0

/-- The columns of marked lines that matter for their window. -/
def MarkedText.extent (text : MarkedText) : Extent :=
  let marks := text.lines.flatMap (·.marks)
  { indent := commonIndent (text.lines.map (·.text))
    markStart := ((marks.map fun mark => min mark.start mark.stop).min?).getD 0
    markStop := (marks.map fun mark => max mark.start mark.stop).foldl max 0
    labelStop := (marks.map (·.labelStop)).foldl max 0
    lineWidth := (text.lines.map fun line => widthOf line.text).foldl max 0 }

end FieldPaths.Excerpt
