import FieldPaths.Grammar

/-!
# Schema files

A schema text read by the grammar (`FieldPaths.Grammar`), with what is wrong with it as a
diagnostic. A text has at most one: reading stops at the first fault.
-/

namespace FieldPaths

/-- What a schema text says. -/
structure SchemaFile where
  /-- The declarations before the first fault. -/
  declarations : List (Declaration Span)
  /-- The diagnostic of the first fault. -/
  diagnostic : Option Diagnostic
deriving Repr, DecidableEq

namespace SchemaFile

/-- Reads the text of the source with the given position. -/
def read (source : Nat) (text : String) : SchemaFile :=
  let (declarations, fault) := Grammar.declarations source (Token.scan text)
  ⟨declarations, fault.map (·.diagnostic source text)⟩

/-- Whether the text is a schema file. -/
def isValid (file : SchemaFile) : Bool := file.diagnostic.isNone

end SchemaFile

end FieldPaths
