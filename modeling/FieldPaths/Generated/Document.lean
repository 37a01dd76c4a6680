import FieldPaths.Compilation
import FieldPaths.JsonValue

/-!
# Descriptors as data

The generated members as a JSON document: every type with its constants and, apart from them, the
functions that build paths.
-/

namespace FieldPaths

/-- A constant as data. -/
def FieldConstant.json (constant : FieldConstant) : JsonValue :=
  .object [("name", .string constant.name), ("value", .string constant.value)]

/-- A builder as data. -/
def PathBuilder.json (builder : PathBuilder) : JsonValue :=
  .object
    [("name", .string builder.name), ("param", .string builder.param),
      ("prefix", .string builder.lead)]

/-- A type as data. -/
def TypeSchema.json (type : TypeSchema) : JsonValue :=
  .object
    [("name", .string type.name), ("constants", .array (type.constants.map (·.json))),
      ("functions", .array (type.builders.map (·.json)))]

/-- Some types as data. -/
def TypeSchema.document (types : List TypeSchema) : JsonValue :=
  .object [("types", .array (types.map (·.json)))]

/-- Some types as JSON text, on one line or indented. -/
def TypeSchema.jsonText (indented : Bool) (types : List TypeSchema) : String :=
  (TypeSchema.document types).write (if indented then .indented else .compact) 0

/-- The types of a compilation as JSON text. -/
def Compilation.jsonText (indented : Bool) (c : Compilation) : Except OutputError String :=
  c.validTypes.map (TypeSchema.jsonText indented)

end FieldPaths
