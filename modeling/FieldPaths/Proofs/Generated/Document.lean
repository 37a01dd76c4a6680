import FieldPaths.Generated.Document
import FieldPaths.Proofs.Rust.Definition

/-!
# What a document lists

Generated data read back by keys, as whoever uses it does: where the entries of a record stand does
not matter, nor whether there are others. Every type is listed with all its members.
-/

namespace FieldPaths

/-! ## Looking into a document -/

namespace JsonValue

/-- The value of the first entry with a key. -/
def entry? (key : String) : JsonValue → Option JsonValue
  | object entries => (entries.find? (·.1 == key)).map (·.2)
  | _ => none

def text? : JsonValue → Option String
  | string text => some text
  | _ => none

def elements? : JsonValue → Option (List JsonValue)
  | array elements => some elements
  | _ => none

end JsonValue

/-! ## Types as they are listed -/

/-- A function as it is listed. -/
structure ListedFunction where
  name : String
  param : String
  lead : String
deriving Repr, DecidableEq

/-- A type as it is listed. -/
structure ListedType where
  name : String
  /-- The names of the constants and their values. -/
  constants : List (String × String)
  functions : List ListedFunction
deriving Repr, DecidableEq

namespace ListedType

/-- The value of an entry that is a text. -/
def textAt? (value : JsonValue) (key : String) : Option String :=
  (value.entry? key).bind JsonValue.text?

/-- The elements of an entry that is a list. -/
def elementsAt? (value : JsonValue) (key : String) : Option (List JsonValue) :=
  (value.entry? key).bind JsonValue.elements?

def constant? (value : JsonValue) : Option (String × String) := do
  let name ← textAt? value "name"
  let content ← textAt? value "value"
  return (name, content)

def function? (value : JsonValue) : Option ListedFunction := do
  let name ← textAt? value "name"
  let param ← textAt? value "param"
  let lead ← textAt? value "prefix"
  return ⟨name, param, lead⟩

def ofJson? (value : JsonValue) : Option ListedType := do
  let name ← textAt? value "name"
  let constants ← (← elementsAt? value "constants").mapM constant?
  let functions ← (← elementsAt? value "functions").mapM function?
  return ⟨name, constants, functions⟩

/-- The types that a document lists. -/
def ofDocument? (document : JsonValue) : Option (List ListedType) :=
  (elementsAt? document "types").bind (·.mapM ofJson?)

/-- A type as it is meant to be listed. -/
def ofType (type : TypeSchema) : ListedType where
  name := type.name
  constants := type.constants.map fun constant ↦ (constant.name, constant.value)
  functions := type.builders.map fun builder ↦ ⟨builder.name, builder.param, builder.lead⟩

theorem ofJson?_json (type : TypeSchema) : ofJson? type.json = some (ofType type) := by
  have hconstants : (type.constants.map (·.json)).mapM constant?
      = some (type.constants.map fun constant ↦ (constant.name, constant.value)) := by
    rw [List.mapM_map]
    exact Rust.mapM_eq_some fun _ _ ↦ rfl
  have hfunctions : (type.builders.map (·.json)).mapM function?
      = some (type.builders.map fun builder ↦ ⟨builder.name, builder.param, builder.lead⟩) := by
    rw [List.mapM_map]
    exact Rust.mapM_eq_some fun _ _ ↦ rfl
  change ((type.constants.map (·.json)).mapM constant?).bind _ = _
  rw [hconstants, Option.bind_some]
  change ((type.builders.map (·.json)).mapM function?).bind _ = _
  rw [hfunctions]
  rfl

theorem ofDocument?_document (types : List TypeSchema) :
    ofDocument? (TypeSchema.document types) = some (types.map ofType) := by
  change (types.map (·.json)).mapM ofJson? = _
  rw [List.mapM_map]
  exact Rust.mapM_eq_some fun type _ ↦ ofJson?_json type

end ListedType

end FieldPaths
