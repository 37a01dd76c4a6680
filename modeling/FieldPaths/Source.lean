import FieldPaths.Text.Blank

/-!
# Schema sources

A compilation reads any number of schema texts, and what it says points back into them. A source is
known by its position in the list of sources; a place in it is a range of bytes of its text in
UTF-8.
-/

namespace FieldPaths

/-- Where a schema text came from. -/
inductive Origin where
  | inline
  | stdin
  | file (path : String)
deriving Repr, DecidableEq

namespace Origin

/-- The name a source is shown by. -/
def displayName : Origin → String
  | inline => "<schema>"
  | stdin => "<stdin>"
  | file path => path

/-- The path of a source that is a file. -/
def path? : Origin → Option String
  | file path => some path
  | _ => none

end Origin

/-- A schema text and where it came from. -/
structure Source where
  origin : Origin
  text : String
deriving Repr, DecidableEq

/-- Whether there is nothing to compile: every text is empty or white space. -/
def Source.allBlank (sources : List Source) : Bool := sources.all fun s => isBlankText s.text

/-- A range of bytes in one of the sources. -/
structure Span where
  /-- The position of the source in the list of sources. -/
  source : Nat
  /-- The first byte. -/
  start : Nat
  /-- The first byte after the range. -/
  stop : Nat
deriving Repr, DecidableEq

end FieldPaths
