import FieldPaths.Compilation
import FieldPaths.Rust.Name
import FieldPaths.Rust.Quoted

/-!
# Descriptors as Rust items

For every type, its constants go into an `impl` block of the type itself and its builders into one
of a companion type, because a constant and a function of one type cannot share a name. The text is
meant to be included beside the types it is about.

The items are made first, as values in which every name has its place, and written out last. A
name of a type, a field or a companion that is no identifier stops everything.
-/

namespace FieldPaths

namespace Generated

/-- How Rust items are written. -/
structure Style where
  /-- What the name of a companion ends with. -/
  suffix : String := "Paths"
  /-- Whether a comment says that the text is generated. -/
  header : Bool := true
  /-- Whether the warnings about the spelling of names are switched off. -/
  allowLints : Bool := true
deriving Repr, DecidableEq

/-- The comment at the top of generated text. -/
def header : String := "// @generated by schemapath. Do not edit."

/-- A function of a companion. Its body puts the constant of the same name in `owner` and the
separator before its parameter. -/
structure PathFunction where
  name : String
  param : String
  owner : String
deriving Repr, DecidableEq

/-- A block of generated text. -/
inductive Block where
  | header
  /-- The constants of a type. -/
  | constants (owner : String) (constants : List FieldConstant)
  /-- A companion type and its functions. -/
  | companion (name : String) (functions : List PathFunction)
deriving Repr, DecidableEq

/-! ## Making the items -/

/-- The name of the companion of a type, if it has one. -/
def companion? (style : Style) (type : TypeSchema) : Option String :=
  if type.builders.isEmpty then none else some (Rust.companionName type.name style.suffix)

/-- The names that have to be identifiers, in the order they are looked at. -/
def checkedNames (style : Style) (type : TypeSchema) : List String :=
  type.name :: type.descriptors.map (·.field) ++ (companion? style type).toList

/-- The blocks of one type. -/
def blocksOf (style : Style) (type : TypeSchema) : List Block :=
  let owner := Rust.identifier type.name
  .constants owner type.constants ::
    ((companion? style type).map fun name =>
      Block.companion name (type.builders.map fun b => ⟨b.name, b.param, owner⟩)).toList

/-- The blocks of one type, if its names are identifiers. -/
def checkedBlocksOf (style : Style) (type : TypeSchema) : Except OutputError (List Block) :=
  match (checkedNames style type).find? (!Rust.isIdentifier ·) with
  | some name => .error (.invalidRustName type.name name)
  | none => .ok (blocksOf style type)

/-- The blocks of some types. A type without descriptors has none. -/
def blocks (style : Style) (types : List TypeSchema) : Except OutputError (List Block) := do
  let bodies ← (types.filter (!·.descriptors.isEmpty)).mapM (checkedBlocksOf style)
  return (if style.header then [.header] else []) ++ bodies.flatten

/-! ## Writing the items -/

/-- The line that switches a warning off. -/
def lintLine (style : Style) (lint : String) : String :=
  if style.allowLints then "#[allow(" ++ lint ++ ")]\n" else ""

/-- A constant on a line. -/
def constantLine (constant : FieldConstant) : String :=
  "    pub const " ++ constant.name ++ ": &'static str = " ++ Rust.quoted constant.value ++ ";\n"

/-- A function on three lines. -/
def functionLines (function : PathFunction) : String :=
  "    pub fn " ++ function.name ++ "(" ++ function.param ++ ": &str) -> String \x7b\n" ++
    "        [" ++ function.owner ++ "::" ++ function.name ++ ", " ++ Rust.quoted pathSeparator ++
    ", " ++ function.param ++ "].concat()\n" ++
    "    \x7d\n"

/-- The text of a block. -/
def Block.text (style : Style) : Block → String
  | .header => Generated.header
  | .constants owner ofType =>
    lintLine style "non_upper_case_globals" ++ "impl " ++ owner ++ " \x7b\n" ++
      String.join (ofType.map constantLine) ++ "\x7d"
  | .companion name functions =>
    "pub struct " ++ name ++ ";\n\n" ++ lintLine style "non_snake_case" ++
      "impl " ++ name ++ " \x7b\n" ++ "\n".intercalate (functions.map functionLines) ++ "\x7d"

end Generated

/-- Some types as Rust text. -/
def TypeSchema.rustText (style : Generated.Style) (types : List TypeSchema) :
    Except OutputError String := do
  let blocks ← Generated.blocks style types
  return "\n\n".intercalate (blocks.map (·.text style))

/-- The types of a compilation as Rust text. -/
def Compilation.rustText (style : Generated.Style) (c : Compilation) :
    Except OutputError String := do
  TypeSchema.rustText style (← c.validTypes)

end FieldPaths
