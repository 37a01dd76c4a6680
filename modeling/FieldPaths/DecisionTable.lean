import FieldPaths.Compilation

/-!
# The table of decisions

For every selected type, what was decided for each of its fields and why:

```text
class Order
  name      String  leaf String  _name
  customer  User    composite    _customer, _customer(subpath)
```

The columns are as wide as their widest cells, with two blanks between them, and the rows end with
their last character. A width is measured in bytes and filled up in characters, which is the same
for the names that a schema can use.
-/

namespace FieldPaths

namespace DecisionTable

/-- What the table says about one field. -/
structure Row where
  name : String
  type : String
  decision : String
  /-- The members made for the field, or nothing where it is skipped. -/
  members : String
deriving Repr, DecidableEq

/-- The decision about a field: why it is skipped, or what its type is to a path. -/
def decision (leaves : LeafTable) (field : Field Span) : String :=
  match field.exclusion with
  | some reason => "skip: " ++ reason.text
  | none =>
    match LeafTable.classify field.type with
    | some leaf => "leaf " ++ leaf.text
    | none => if leaves.isLeaf field.type then "leaf" else "composite"

/-- The members of a descriptor as the table lists them. -/
def membersText (descriptor : Descriptor) : String :=
  match descriptor.builder with
  | none => descriptor.constant.name
  | some builder =>
    descriptor.constant.name ++ ", " ++ builder.name ++ "(" ++ builder.param ++ ")"

/-- The members of a field: those of the first descriptor of its name. -/
def members (descriptors : List Descriptor) (field : Field Span) : String :=
  match field.exclusion with
  | some _ => ""
  | none =>
    match descriptors.find? (·.field == field.name) with
    | none => ""
    | some descriptor => membersText descriptor

/-- The row of a field. -/
def row (leaves : LeafTable) (descriptors : List Descriptor) (field : Field Span) : Row where
  name := field.name
  type := field.type.text
  decision := decision leaves field
  members := members descriptors field

/-- The width of the widest cell, counted in bytes. -/
def width (cells : List String) : Nat := (cells.map (·.utf8ByteSize)).foldl max 0

/-- A cell filled up with blanks to the given width, counted in characters. -/
def pad (width : Nat) (cell : String) : String :=
  cell ++ String.ofList (List.replicate (width - cell.length) ' ')

/-- The rows on a line each, their columns aligned. -/
def lines (rows : List Row) : List String :=
  let w₀ := width (rows.map (·.name))
  let w₁ := width (rows.map (·.type))
  let w₂ := width (rows.map (·.decision))
  rows.map fun r =>
    let line := "  " ++ pad w₀ r.name ++ "  " ++ pad w₁ r.type ++ "  " ++ pad w₂ r.decision ++
      "  " ++ r.members
    String.ofList (trimBack line.toList)

/-- The block of a declaration with the given descriptors. -/
def block (leaves : LeafTable) (decl : Declaration Span) (descriptors : List Descriptor) :
    String :=
  let title := decl.kind.text ++ " " ++ decl.name
  let rows :=
    match decl.kind with
    | .interface => ["  (not a valid target)"]
    | .cls =>
      if decl.fields.isEmpty then ["  (no fields)"]
      else lines (decl.fields.map (row leaves descriptors))
  "\n".intercalate (title :: rows)

end DecisionTable

/-- The tables of all selected types, with an empty line between them. -/
def Compilation.decisionTables (c : Compilation) : String :=
  "\n\n".intercalate <| c.types.filterMap fun type =>
    (c.declaration? type.name).map fun decl =>
      DecisionTable.block c.leaves decl type.descriptors

end FieldPaths
