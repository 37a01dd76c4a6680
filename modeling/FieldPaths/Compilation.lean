import FieldPaths.Descriptor
import FieldPaths.SchemaFile
import FieldPaths.Selection

/-!
# Compiling schema sources

A compilation reads all its sources, keeps the first declaration of every name, and makes
descriptors for the declarations that are selected. It never stops: whatever is wrong is a
diagnostic, and the rest is done all the same. What was found wrong decides afterwards whether
anything may be written.

The diagnostics come source by source, each with the fault of its text before the names that it
declares again, and after all sources those of the selected declarations.
-/

namespace FieldPaths

/-! ## Collecting declarations -/

/-- The diagnostic for a name that is declared again. -/
def duplicateDeclaration (decl first : Declaration Span) : Diagnostic where
  kind := .duplicateDeclaration
  span := decl.location
  detail := some decl.name
  related := [⟨"first declared here", first.location⟩]
  moreHints := ["type names must be unique across all schema sources"]

/-- The declarations of `kept` and those of the list whose names are new, with a diagnostic for
each of the others. -/
def keepFirst (kept : List (Declaration Span)) :
    List (Declaration Span) → List (Declaration Span) × List Diagnostic
  | [] => (kept, [])
  | decl :: more =>
    match kept.find? (·.name == decl.name) with
    | none => keepFirst (kept ++ [decl]) more
    | some first =>
      let (all, ds) := keepFirst kept more
      (all, duplicateDeclaration decl first :: ds)

/-- The declarations kept from the sources, the first of which has the position `index`, when those
of `kept` came before. -/
def collect (kept : List (Declaration Span)) (index : Nat) :
    List Source → List (Declaration Span) × List Diagnostic
  | [] => (kept, [])
  | source :: more =>
    let file := SchemaFile.read index source.text
    let (kept, repeated) := keepFirst kept file.declarations
    let (all, ds) := collect kept (index + 1) more
    (all, file.diagnostic.toList ++ repeated ++ ds)

/-! ## Selected types -/

/-- The descriptors of one selected declaration. -/
structure TypeSchema where
  name : String
  kind : DeclKind
  location : Span
  /-- Whether no error was found in the declaration. -/
  isValid : Bool
  /-- In the order of the fields. -/
  descriptors : List Descriptor
deriving Repr, DecidableEq

namespace TypeSchema

/-- The constants of a type, in the order of its fields. -/
def constants (type : TypeSchema) : List FieldConstant := constantsOf type.descriptors

/-- The builders of a type, in the order of its fields. -/
def builders (type : TypeSchema) : List PathBuilder := buildersOf type.descriptors

end TypeSchema

/-- The diagnostic for a schema error. -/
def Located.diagnostic (located : Located Span) : Diagnostic :=
  match located.error with
  | .invalidTarget typeName =>
    { kind := .invalidTarget, span := located.location, detail := some typeName }
  | error@(.duplicateDescriptor ..) =>
    { kind := .duplicateDescriptor, span := located.location, detail := some error.message }

/-- The descriptors of a declaration. -/
def Declaration.schema (decl : Declaration Span) (leaves : LeafTable) : TypeSchema :=
  let synthesis := decl.synthesis leaves
  ⟨decl.name, decl.kind, decl.location, synthesis.isValid, synthesis.descriptors⟩

/-- What there is to say about a selected declaration: the errors of its descriptors or, where
there are neither errors nor descriptors, that it is empty. -/
def Declaration.diagnostics (decl : Declaration Span) (leaves : LeafTable) : List Diagnostic :=
  let synthesis := decl.synthesis leaves
  if synthesis.isValid && synthesis.descriptors.isEmpty then
    [{ kind := .emptySchema, span := decl.location, detail := some decl.name }]
  else synthesis.errors.map (·.diagnostic)

/-! ## Compilations -/

/-- A compilation and all that came of it. -/
structure Compilation where
  sources : List Source
  leaves : LeafTable
  /-- The first declaration of every name, selected or not. -/
  declarations : List (Declaration Span)
  /-- One for each selected declaration, in their order. -/
  types : List TypeSchema
  /-- The patterns of the selection that describe no declaration. -/
  unmatched : List String
  diagnostics : List Diagnostic
deriving Repr, DecidableEq

/-- Compiles the sources. -/
def compile (sources : List Source) (leaves : LeafTable) (selection : Selection) : Compilation :=
  let (declarations, ds) := collect [] 0 sources
  let selected := declarations.filter selection.selects
  { sources := sources
    leaves := leaves
    declarations := declarations
    types := selected.map (·.schema leaves)
    unmatched := selection.unmatched declarations
    diagnostics := ds ++ selected.flatMap (·.diagnostics leaves) }

/-- Why nothing may be written. -/
inductive OutputError where
  /-- A pattern of the selection describes no declaration. -/
  | unmatchedSelection (pattern : String)
  /-- The compilation found errors. -/
  | invalidSchema (errorCount : Nat)
  /-- A name that has to be written in Rust is no identifier there. -/
  | invalidRustName (typeName name : String)
deriving Repr, DecidableEq

/-- The wording of an output error. -/
def OutputError.message : OutputError → String
  | unmatchedSelection pattern => "no declaration matches `" ++ pattern ++ "`"
  | invalidSchema errorCount => s!"schema compilation failed with {errorCount} errors"
  | invalidRustName typeName name =>
    "`" ++ name ++ "` in `" ++ typeName ++ "` is not a valid Rust identifier"

namespace Compilation

/-- Whether no error was found. -/
def isValid (c : Compilation) : Bool := !Diagnostic.hasErrors c.diagnostics

/-- The kept declaration of this name. -/
def declaration? (c : Compilation) (name : String) : Option (Declaration Span) :=
  c.declarations.find? (·.name == name)

/-- The types, if they may be written: every pattern describes a declaration, and there is no
error. -/
def validTypes (c : Compilation) : Except OutputError (List TypeSchema) :=
  match c.unmatched with
  | pattern :: _ => .error (.unmatchedSelection pattern)
  | [] =>
    if c.isValid then .ok c.types
    else .error (.invalidSchema (Diagnostic.errorCount c.diagnostics))

end Compilation

end FieldPaths
