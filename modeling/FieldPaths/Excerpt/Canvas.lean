/-!
# A canvas of inked characters

Excerpts are drawn, not written: an underline goes beneath text that is there already, and a label
may cross a line that was drawn before. The canvas is a list of rows of cells, each a character and
the ink it is drawn with, and it grows to take whatever is drawn on it.

What an ink looks like is decided when the canvas is turned into text. Without colours the inks are
dropped and the characters remain.
-/

namespace FieldPaths.Excerpt

/-- What a character is drawn as. -/
inductive Ink where
  | plain
  /-- Line numbers and everything else that frames the source. -/
  | frame
  /-- The word for how serious the report is. -/
  | level
  /-- The message of the report. -/
  | message
  /-- The place that the report is about. -/
  | primary
  /-- A place that the report also speaks of. -/
  | secondary
  /-- Text that a fix adds. -/
  | added
  /-- Text that a fix takes away. -/
  | removed
deriving Repr, DecidableEq

/-- A character and its ink. -/
structure Cell where
  char : Char
  ink : Ink
deriving Repr, DecidableEq

/-- The cell between things that were drawn. -/
def Cell.blank : Cell := ⟨' ', .plain⟩

/-- A row of cells. -/
abbrev Row := List Cell

namespace Row

/-- Draws a text over what is there, from the given column on. -/
def draw (row : Row) (column : Nat) (text : List Char) (ink : Ink) : Row :=
  match text with
  | [] => row
  | _ =>
    row.take column ++ List.replicate (column - row.length) Cell.blank ++ text.map (⟨·, ink⟩) ++
      row.drop (column + text.length)

/-- Draws a text after what is there. -/
def append (row : Row) (text : List Char) (ink : Ink) : Row := row ++ text.map (⟨·, ink⟩)

/-- Changes the ink of what is there, from one column to before another. -/
def tint (row : Row) (start stop : Nat) (ink : Ink) : Row :=
  row.mapIdx fun column cell =>
    if start ≤ column && column < stop then { cell with ink := ink } else cell

/-- Cuts out the cells from one column to before another and draws `text` in their place. Nothing
is done where the row is too short. -/
def cut (row : Row) (start stop : Nat) (text : List Char) : Row :=
  if start = stop || row.length < start || row.length < stop then row
  else row.take start ++ text.map (⟨·, .frame⟩) ++ row.drop stop

/-- The text of a row. Every ink is switched on by a code and off again; a change between inks with
one code is none. -/
def text (code : Ink → String) (off : String) (row : Row) : String :=
  go "" row
where
  /-- The text of the cells when the given code is on. -/
  go (current : String) : Row → String
    | [] => if current.isEmpty then "" else off
    | cell :: more =>
      let next := code cell.ink
      if next = current then cell.char.toString ++ go current more
      else
        (if current.isEmpty then "" else off) ++ next ++ cell.char.toString ++ go next more

end Row

/-- Rows from top to bottom. -/
abbrev Canvas := List Row

namespace Canvas

/-- Changes a row, which is made if it is not there. -/
def atRow (canvas : Canvas) (row : Nat) (f : Row → Row) : Canvas :=
  (canvas ++ List.replicate (row + 1 - canvas.length) []).modify row f

/-- Draws a text in a row, from the given column on. -/
def draw (canvas : Canvas) (row column : Nat) (text : List Char) (ink : Ink) : Canvas :=
  if text.isEmpty then canvas else canvas.atRow row (·.draw column text ink)

/-- Draws a text after what is in a row. -/
def append (canvas : Canvas) (row : Nat) (text : List Char) (ink : Ink) : Canvas :=
  if text.isEmpty then canvas else canvas.atRow row (·.append text ink)

/-- Draws one character in each of the rows from one to before another. -/
def column (canvas : Canvas) (start stop column : Nat) (char : Char) (ink : Ink) : Canvas :=
  (List.range' start (stop - start)).foldl (fun canvas row => canvas.draw row column [char] ink)
    canvas

end Canvas

/-! ## Colours -/

/-- How serious a part of a report is. -/
inductive Level where
  | error
  | warning
  | note
  | help
deriving Repr, DecidableEq

namespace Level

/-- The word for a level. -/
def text : Level → String
  | error => "error"
  | warning => "warning"
  | note => "note"
  | help => "help"

/-- The number of the terminal colour of a level. -/
def colour : Level → String
  | error => "91"
  | warning => "33"
  | note => "92"
  | help => "96"

end Level

/-- A terminal escape. -/
def escape (number : String) : String := "\x1b[" ++ number ++ "m"

/-- The terminal escapes that switch an ink on in a part of the given level. -/
def Ink.code (level : Level) : Ink → String
  | plain => ""
  | frame | secondary => escape "1" ++ escape "94"
  | Ink.level | primary => escape "1" ++ escape level.colour
  | message => escape "1"
  | added => escape "92"
  | removed => escape "91"

/-- The text of a canvas, in colours or without. -/
def Canvas.text (coloured : Bool) (level : Level) (canvas : Canvas) : String :=
  let row (r : Row) : String :=
    if coloured then r.text (Ink.code level) (escape "0")
    else String.ofList (r.map (·.char))
  "\n".intercalate (canvas.map row)

end FieldPaths.Excerpt
