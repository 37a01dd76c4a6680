import FieldPaths.Excerpt.Underline

/-!
# Edits

A proposed change of a text, drawn as the lines it leads to. An edit is first made as small as it
can be: what its text has in common with the text it replaces is left alone.

An edit that takes something away and leaves one line is drawn as a difference, the old lines above
the new one; one that adds to a line as the new line with the added part underlined. Others show the
new lines as they are.
-/

namespace FieldPaths.Excerpt

/-! ## Texts -/

/-- The parts of a text between its line feeds, which are one more than there are line feeds. -/
def pieces (text : List Char) : List (List Char) := text.splitOn '\n'

/-- The lines of a text. One that ends the text is not followed by an empty one. -/
def linesIn (text : List Char) : List (List Char) := (Line.linesFrom 1 0 text).map (·.text)

/-- The characters that two texts both start with. -/
def commonFront : List Char → List Char → List Char
  | a :: as, b :: bs => if a = b then a :: commonFront as bs else []
  | _, _ => []

/-- If `text` is `old` with something put into it: the number of bytes of `old` before that, what is
put in, and the number of bytes after it. -/
def insertion? (old text : List Char) : Option (Nat × List Char × Nat) :=
  if old.isPrefixOf text then some (bytesOf old, text.drop old.length, 0)
  else if old.isSuffixOf text then some (0, text.take (text.length - old.length), bytesOf old)
  else
    let front := commonFront old text
    let back := old.drop front.length
    let rest := text.drop front.length
    if back.isSuffixOf rest then
      some (bytesOf front, rest.take (rest.length - back.length), bytesOf back)
    else none

/-! ## Edits -/

/-- Replaces a range of bytes by a text. -/
structure Edit where
  start : Nat
  stop : Nat
  text : List Char
deriving Repr, DecidableEq

/-- How an edit is drawn. -/
inductive EditForm where
  /-- The old lines above the new one. -/
  | difference
  /-- The new line with the change underlined. -/
  | underlined
  /-- Lines put before others. -/
  | inserted
  /-- The new lines as they are. -/
  | block
deriving Repr, DecidableEq

/-- A line after an edit. The columns that the edit put there are counted in characters. -/
structure EditedLine where
  text : List Char
  added : List (Nat × Nat)
deriving Repr, DecidableEq

namespace Edit

/-- The edit without what its text has in common with the text it replaces. -/
def trimmed (edit : Edit) (source : SourceText) : Edit :=
  if edit.text.isEmpty then edit
  else match insertion? (source.slice edit.start edit.stop) edit.text with
    | none => edit
    | some (front, text, back) => ⟨edit.start + front, edit.stop - back, text⟩

/-- Whether anything but blanks is replaced. -/
def replacesText (edit : Edit) (source : SourceText) : Bool :=
  !(source.slice edit.start edit.stop).all isBlank

/-- Whether something is only taken away. -/
def isDeletion (edit : Edit) (source : SourceText) : Bool :=
  edit.text.all isBlank && edit.replacesText source

/-- Whether text is only added. -/
def isAddition (edit : Edit) (source : SourceText) : Bool :=
  !edit.text.isEmpty && !edit.replacesText source

/-- Whether text is replaced by one that it is no part of. -/
def isDestructive (edit : Edit) (source : SourceText) : Bool :=
  !edit.text.isEmpty && edit.replacesText source &&
    (insertion? (trimBoth (source.slice edit.start edit.stop)) (trimBoth edit.text)).isNone

/-- The number of the line that an edit starts in. -/
def firstLine (edit : Edit) (source : SourceText) : Nat :=
  (source.places edit.start edit.stop).1.line

/-- What the lines of an edit become, from its first line on. -/
def result (edit : Edit) (source : SourceText) : List Char :=
  let cut := edit.trimmed source
  let (start, stop) := source.places cut.start cut.stop
  let line (number : Nat) : List Char := (source.line? number).getD []
  let first := edit.firstLine source
  let before := (List.range' first (start.line - first)).flatMap fun number => line number ++ ['\n']
  let front := before ++ (line start.line).take start.char ++ cut.text
  let text := if front.getLast? = some '\n' then front else front ++ (line stop.line).drop stop.char
  (text.reverse.dropWhile (· == '\n')).reverse

/-- The lines after an edit. There are none where the edit changes nothing or leaves nothing. -/
def resultLines (edit : Edit) (source : SourceText) : List EditedLine :=
  let cut := edit.trimmed source
  let start := (source.places cut.start cut.stop).1
  let size (text : List Char) : Nat :=
    (text.map fun c => if c == '\t' then 4 else 1).foldr (· + ·) 0
  let added := match pieces cut.text with
    | [] => []
    | first :: more => [(start.char, start.char + size first)] :: more.map fun text => [(0, size text)]
  let untouched := List.replicate (start.line - edit.firstLine source) []
  List.zipWith EditedLine.mk (linesIn (edit.result source)) (untouched ++ added)

/-- Whether an edit changes nothing. -/
def isVoid (edit : Edit) (source : SourceText) : Bool :=
  source.slice edit.start edit.stop == edit.text

/-- How an edit is drawn. -/
def form (edit : Edit) (source : SourceText) : EditForm :=
  let cut := edit.trimmed source
  let result := edit.result source
  let isOneLine := (linesIn result).length ≤ 1
  let isAll := trimBoth cut.text == trimBoth result
  if (cut.isDeletion source || cut.isDestructive source) && isOneLine then .difference
  else if cut.text.getLast? = some '\n' && isAll then .inserted
  else if !isAll && isOneLine then .underlined
  else .block

/-- The lines that an edit takes away or changes. -/
def oldLines (edit : Edit) (source : SourceText) : List Line :=
  let cut := edit.trimmed source
  source.linesOf cut.start cut.stop

/-- The largest line number shown for an edit. -/
def lastNumber (edit : Edit) (source : SourceText) : Nat :=
  if edit.isVoid source then 0
  else match edit.form source with
  | .difference => ((edit.oldLines source).getLast?.map (·.number)).getD 1
  | .underlined => edit.firstLine source
  | _ => edit.firstLine source + ((linesIn (edit.result source)).length - 1)

end Edit

/-! ## Drawing -/

/-- A row of an edit: a numbered line with a sign before it. -/
structure EditRow where
  number : Nat
  sign : List Char
  signInk : Ink
  text : List Char
  textInk : Ink := .plain
  added : List (Nat × Nat) := []

namespace Canvas

/-- Draws rows of an edit under what is there. -/
def drawEditRows (canvas : Canvas) (gutter : Nat) (rows : List EditRow) : Canvas :=
  rows.foldl (fun canvas row =>
    let here := canvas.length
    let canvas := canvas.draw here 0 (numberText gutter row.number) .frame
    let canvas := canvas.draw here (gutter + 1) row.sign row.signInk
    let canvas := canvas.draw here (gutter + 3) (visible row.text) row.textInk
    row.added.foldl (fun canvas (start, stop) =>
      let tabs := 3 * (row.text.take start).count '\t'
      canvas.atRow here (·.tint (gutter + 3 + start + tabs) (gutter + 3 + stop + tabs) .added))
      canvas) canvas

/-- Draws the bar that ends an edit. -/
def drawEnd (canvas : Canvas) (gutter : Nat) : Canvas :=
  canvas.draw canvas.length (gutter + 1) ['|'] .frame

/-- The old lines of an edit as rows. -/
def removedRows (number : Nat) (ink : Ink) (lines : List (List Char)) : List EditRow :=
  lines.zipIdx.map fun (text, index) => ⟨number + index, ['-', ' '], .removed, text, ink, []⟩

/-- Gives the text that is taken away its ink, in rows that end two rows above the given one. -/
def tintRemoved (canvas : Canvas) (gutter row : Nat) (edit : Edit) (source : SourceText) :
    Canvas :=
  let (start, stop) := source.places edit.start edit.stop
  let lines := linesIn (source.slice edit.start edit.stop)
  lines.zipIdx.foldl (fun canvas (text, index) =>
    let size := (visible text).length
    let (first, last) :=
      if index = 0 then (start.column, start.column + size)
      else if index + 1 = lines.length then (0, stop.column)
      else (0, size)
    canvas.atRow (row + index - 1 - lines.length)
      (·.tint (gutter + 3 + first) (gutter + 3 + last) .removed)) canvas

/-- Draws the old lines of an edit and the new one. An old line that stays is not drawn, nor is a
new line of blanks. -/
def drawDifference (canvas : Canvas) (gutter : Nat) (source : SourceText) (edit : Edit)
    (line : EditedLine) : Canvas :=
  let number := edit.firstLine source
  let old := (edit.oldLines source).map (·.text)
  let old := if old.getLast? = some line.text then old.dropLast else old
  let new : List EditRow :=
    if (edit.oldLines source).getLast?.any (·.text == line.text) || line.text.all isBlank then []
    else [⟨number, ['+', ' '], .added, line.text, .plain, line.added⟩]
  let canvas := canvas.drawEditRows gutter (removedRows number .plain old ++ new)
  (canvas.tintRemoved gutter canvas.length (edit.trimmed source) source).drawEnd gutter

/-- Draws the signs beneath the part of a line that an edit added. -/
def drawAdded (canvas : Canvas) (gutter : Nat) (source : SourceText) (edit : Edit) : Canvas :=
  let cut := edit.trimmed source
  let isBlankOnly := cut.text.all isBlank
  let front := if isBlankOnly then 0 else bytesOf (cut.text.takeWhile isBlank)
  let size := widthOf (if isBlankOnly then cut.text else trimBoth cut.text)
  let column := gutter + 3 + (source.places cut.start cut.stop).1.column + front
  let sign := if cut.isAddition source then '+' else '~'
  let row := canvas.length
  (canvas.draw row column (List.replicate size sign) .added).draw row (gutter + 1) ['|'] .frame

/-- The sign before a line of an edit that leads to several lines. -/
def blockSign (line : EditedLine) : List Char × Ink :=
  match line.added with
  | [] | [(0, 0)] => (['|'], .frame)
  | [(0, stop)] => if stop = bytesOf line.text then (['+', ' '], .added) else (['~', ' '], .added)
  | _ => (['~', ' '], .added)

/-- Draws an edit. -/
def drawEdit (canvas : Canvas) (gutter : Nat) (source : SourceText) (edit : Edit) : Canvas :=
  let number := edit.firstLine source
  let form := edit.form source
  let lines := edit.resultLines source
  if edit.isVoid source then canvas
  else match lines, form with
    | [], form =>
      let (start, stop) := source.places edit.start edit.stop
      let old := (List.range' start.line (stop.line + 1 - start.line)).map fun line =>
        (source.line? line).getD []
      let canvas := if form == .difference then canvas.drawEnd gutter else canvas
      (canvas.drawEditRows gutter (removedRows number .removed old)).drawEnd gutter
    | line :: _, .difference => (canvas.drawEnd gutter).drawDifference gutter source edit line
    | lines, form =>
      let row (line : EditedLine) (index : Nat) : EditRow :=
        let (sign, ink) :=
          if 1 < lines.length then blockSign line
          else if form == .inserted then (['+', ' '], .added)
          else (['|', ' '], .frame)
        ⟨number + index, sign, ink, line.text, .plain, line.added⟩
      let rows := lines.zipIdx.map fun (line, index) => row line index
      let untouched := (rows.takeWhile (·.added.isEmpty)).length
      let canvas := canvas.drawEnd gutter
      let canvas :=
        if untouched ≤ 3 then canvas.drawEditRows gutter rows
        else
          let canvas := canvas.drawEditRows gutter (rows.take 1)
          let canvas := canvas.draw canvas.length (gutter - 3) dots .frame
          canvas.drawEditRows gutter (rows.drop (untouched - 1))
      if form == .underlined then canvas.drawAdded gutter source edit else canvas.drawEnd gutter

end Canvas

end FieldPaths.Excerpt
