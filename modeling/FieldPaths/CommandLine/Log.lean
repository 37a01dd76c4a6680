import FieldPaths.Generated.Items

/-!
# What a run tells about itself

While a run goes on, its parts tell what they do: which files were read, what was decided about a
field, what was written. Each of these events has a level, and only events of the levels that are
asked for are shown. They are shown where errors are, but they are not about what is wrong: none of
them is a warning, so nothing is shown unless something asks for it.

The events of a compilation can be told from what came of it, so they are not recorded on the way.
A line that shows one begins with the time, which is left out here.
-/

namespace FieldPaths

namespace CommandLine

/-- How much an event matters, from the most to the least. -/
inductive Level where
  | warn | info | debug | trace
deriving Repr, DecidableEq

namespace Level

def rank : Level → Nat
  | warn => 0
  | info => 1
  | debug => 2
  | trace => 3

/-- The least level that is shown when more is asked for this many times. -/
def ofVerbosity : Nat → Level
  | 0 => warn
  | 1 => info
  | 2 => debug
  | _ => trace

def text : Level → String
  | warn => "WARN"
  | info => "INFO"
  | debug => "DEBUG"
  | trace => "TRACE"

end Level

/-- Something that a part of a run tells. -/
inductive Event where
  | loaded (path : String)
  | parsed (source : String) (declarations errors : Nat)
  | skipped (decl field : String) (reason : Exclusion)
  /-- A name made for a field is that of a static member. -/
  | collides (decl field name : String) (kind : MemberKind)
  | described (decl field : String) (isComposite : Bool)
  | synthesized (decl : String) (descriptors : Nat) (isValid : Bool)
  | compiled (types errors warnings : Nat)
  | constant (decl name : String)
  | builder (decl name : String)
  | wrote (path : String)
deriving Repr, DecidableEq

namespace Event

def level : Event → Level
  | compiled .. | wrote .. => .info
  | loaded .. | parsed .. | skipped .. | collides .. | synthesized .. => .debug
  | described .. | constant .. | builder .. => .trace

def message : Event → String
  | loaded .. => "loaded schema file"
  | parsed .. => "parsed schema source"
  | skipped .. => "field skipped"
  | collides .. => "descriptor collides with existing static member"
  | described .. => "descriptor synthesized"
  | synthesized .. => "schema synthesized"
  | compiled .. => "compiled schemas"
  | constant .. => "emit constant"
  | builder .. => "emit path builder"
  | wrote .. => "wrote generated schema"

/-- What an event tells besides its message. -/
def fields : Event → List (String × String)
  | loaded path | wrote path => [("path", path)]
  | parsed source declarations errors =>
    [("source", Rust.quoted source), ("declarations", toString declarations),
      ("errors", toString errors)]
  | skipped decl field reason => [("decl", decl), ("field", field), ("reason", reason.text)]
  | collides decl field name kind =>
    [("decl", decl), ("field", field), ("name", Rust.quoted name), ("kind", kind.text)]
  | described decl field isComposite =>
    [("decl", decl), ("field", field), ("composite", toString isComposite)]
  | synthesized decl descriptors isValid =>
    [("decl", decl), ("descriptors", toString descriptors), ("valid", toString isValid)]
  | compiled types errors warnings =>
    [("types", toString types), ("errors", toString errors), ("warnings", toString warnings)]
  | constant decl name | builder decl name => [("decl", decl), ("name", name)]

/-- The line that shows an event, behind the time. -/
def line (event : Event) : String :=
  let level := event.level.text
  let indent := String.ofList (List.replicate (5 - level.length) ' ')
  indent ++ level ++ " " ++ event.message ++
    String.join (event.fields.map fun (name, value) => " " ++ name ++ "=" ++ value) ++ "\n"

end Event

end CommandLine

open CommandLine

/-! ## Compiling -/

/-- The event of a conflict. -/
def SchemaError.event? (decl : String) : SchemaError → Option Event
  | .invalidTarget _ => none
  | .duplicateDescriptor field name kind => some (.collides decl field name kind)

/-- The events of a field of a class. -/
def Declaration.fieldEvents {L : Type} (decl : Declaration L) (leaves : LeafTable)
    (field : Field L) : List Event :=
  match field.exclusion with
  | some reason => [.skipped decl.name field.name reason]
  | none =>
    (decl.conflicts leaves field).filterMap (·.error.event? decl.name) ++
      [.described decl.name field.name (field.descriptor leaves).isComposite]

/-- The events of a declaration that descriptors are made for. -/
def Declaration.events {L : Type} (decl : Declaration L) (leaves : LeafTable) : List Event :=
  let synthesis := decl.synthesis leaves
  (match decl.kind with
    | .interface => []
    | .cls => decl.fields.flatMap (decl.fieldEvents leaves)) ++
  [.synthesized decl.name synthesis.descriptors.length synthesis.isValid]

/-- The event of a source that was read. -/
def Source.event (index : Nat) (source : Source) : Event :=
  let file := SchemaFile.read index source.text
  .parsed source.origin.displayName file.declarations.length
    (Diagnostic.errorCount file.diagnostic.toList)

/-- The events of a compilation: those of the sources, then those of the selected declarations. -/
def Compilation.events (c : Compilation) : List Event :=
  c.sources.mapIdx Source.event ++
    (c.types.filterMap fun type => c.declaration? type.name).flatMap (·.events c.leaves) ++
    [.compiled c.types.length (Diagnostic.errorCount c.diagnostics)
      (Diagnostic.warningCount c.diagnostics)]

/-! ## Generating -/

/-- The events of the types that are written in Rust, up to one with a name that cannot be. -/
def Generated.events (style : Style) (types : List TypeSchema) : List Event :=
  let written := (types.filter (!·.descriptors.isEmpty)).takeWhile fun type =>
    (checkedNames style type).all Rust.isIdentifier
  written.flatMap fun type =>
    type.constants.map (.constant type.name ·.name) ++ type.builders.map (.builder type.name ·.name)

end FieldPaths
