import FieldPaths.Text.Width

/-!
# Lines and places of a text

A text as numbered lines, and the line and column of each of its bytes. A line ends with a line
feed, which may have a carriage return before it; the end of a text without one ends its last
line, and an empty text has one empty line.

The byte after the text belongs to the last line. A place in the break of a line, or past the end
of the text, is one column past the end of its line.
-/

namespace FieldPaths.Excerpt

/-- A line of a text. -/
structure Line where
  /-- Its number, from one. -/
  number : Nat
  /-- Its characters without the line break. -/
  text : List Char
  /-- Its first byte. -/
  start : Nat
  /-- The number of bytes of its break. -/
  breakSize : Nat
deriving Repr, DecidableEq

/-- The number of bytes of some characters. -/
def bytesOf (cs : List Char) : Nat := (cs.map Char.utf8Size).foldr (· + ·) 0

namespace Line

/-- The first byte after the line and its break. -/
def stop (line : Line) : Nat := line.start + bytesOf line.text + line.breakSize

/-- The characters of a line up to its break, and the size of the break. -/
def withoutReturn (cs : List Char) : List Char × Nat :=
  match cs.getLast? with
  | some '\r' => (cs.dropLast, 2)
  | _ => (cs, 1)

theorem length_drop_span_lt {c : Char} {cs : List Char} :
    ((c :: cs).drop (((c :: cs).takeWhile (· != '\n')).length + 1)).length < (c :: cs).length := by
  rw [List.length_drop, List.length_cons]
  omega

/-- The lines of the rest of a text that starts at the given line and byte. -/
def linesFrom (number start : Nat) : List Char → List Line
  | [] => []
  | c :: cs =>
    let here := (c :: cs).takeWhile (· != '\n')
    if here.length = (c :: cs).length then [⟨number, c :: cs, start, 0⟩]
    else
      let line : Line := ⟨number, (withoutReturn here).1, start, (withoutReturn here).2⟩
      have := @length_drop_span_lt c cs
      line :: linesFrom (number + 1) line.stop ((c :: cs).drop (here.length + 1))
  termination_by cs => cs.length

/-- The lines of a text. -/
def ofText (text : List Char) : List Line :=
  match linesFrom 1 0 text with
  | [] => [⟨1, [], 0, 0⟩]
  | lines => lines

end Line

/-- A place in a text. -/
structure Place where
  line : Nat
  /-- The number of characters before it in its line. -/
  char : Nat
  /-- The number of columns before it in its line. -/
  column : Nat
  byte : Nat
deriving Repr, DecidableEq

/-- The first characters of a line that make up the given number of bytes, or all of them. -/
def charsUpTo (bytes : Nat) : List Char → List Char
  | [] => []
  | c :: cs => if bytes = 0 then [] else c :: charsUpTo (bytes - c.utf8Size) cs

/-- A text with its lines. -/
structure SourceText where
  chars : List Char
  lines : List Line
deriving Repr

namespace SourceText

/-- A text and its lines. -/
def ofString (text : String) : SourceText := ⟨text.toList, Line.ofText text.toList⟩

/-- The number of bytes of a text. -/
def size (source : SourceText) : Nat := bytesOf source.chars

/-- The last line. -/
def lastLine (source : SourceText) : Line := source.lines.getLast?.getD ⟨1, [], 0, 0⟩

/-- The characters of the line with this number. -/
def line? (source : SourceText) (number : Nat) : Option (List Char) :=
  (source.lines.find? (·.number == number)).map (·.text)

/-- The line that a byte is in, its break included. An empty text has a line of one byte. -/
def lineAt (source : SourceText) (byte : Nat) : Line :=
  (source.lines.find? fun l => l.start ≤ byte && byte < l.stop).getD source.lastLine

/-- The place of a byte as the start of a range. -/
def startPlace (source : SourceText) (byte : Nat) : Place :=
  let line := source.lineAt byte
  let before := charsUpTo (byte - line.start) line.text
  let char := if bytesOf line.text < byte - line.start then before.length + 1 else before.length
  ⟨line.number, char, widthOf before, byte⟩

/-- The place of a byte as the end of a range that starts elsewhere. A range that takes in the
break of its last line goes one column past it, unless it is all in that line. -/
def stopPlace (source : SourceText) (start : Place) (byte : Nat) : Place :=
  let line := source.lineAt byte
  let before := charsUpTo (byte - line.start) line.text
  if start.line ≠ line.number ∧ line.stop - line.breakSize < byte then
    ⟨line.number, before.length + 1, widthOf before + 1, byte⟩
  else ⟨line.number, before.length, widthOf before, byte⟩

/-- The places of both ends of a range of bytes. -/
def places (source : SourceText) (start stop : Nat) : Place × Place :=
  let first := source.startPlace start
  (first, if start = stop then first else source.stopPlace first stop)

/-- The lines that a range of bytes touches, one at least. -/
def linesOf (source : SourceText) (start stop : Nat) : List Line :=
  match source.lines.filter fun l => start < l.stop && l.start ≤ stop with
  | [] => [source.lastLine]
  | lines => lines

/-- The characters of a range of bytes. -/
def slice (source : SourceText) (start stop : Nat) : List Char :=
  let front := charsUpTo start source.chars
  charsUpTo (stop - start) (source.chars.drop front.length)

end SourceText

end FieldPaths.Excerpt
