import FieldPaths.TypeRef

/-!
# Leaf types

A field of a leaf type ends a path: it has a constant but no builder for paths that go further.
Which types are leaves is a closed list of value types, each with the spellings it is known by in
schema files and in programs, and whatever names a compilation adds to it.

Only the simple name of a type counts, and an array is never a leaf.
-/

namespace FieldPaths

/-- The value types that every compilation treats as leaves. -/
inductive LeafType where
  | byte
  | short
  | int
  | long
  | float
  | double
  | boolean
  | char
  | string
  | decimal
  | bigInteger
  | number
  | classRef
  | enum
  | dateTime
deriving Repr, DecidableEq

namespace LeafType

/-- Every leaf type, in the order a name is looked up in. -/
def all : List LeafType :=
  [byte, short, int, long, float, double, boolean, char, string, decimal, bigInteger, number,
    classRef, enum, dateTime]

/-- The name a leaf type is shown by. -/
def text : LeafType → String
  | byte => "Byte"
  | short => "Short"
  | int => "Int"
  | long => "Long"
  | float => "Float"
  | double => "Double"
  | boolean => "Boolean"
  | char => "Char"
  | string => "String"
  | decimal => "Decimal"
  | bigInteger => "BigInteger"
  | number => "Number"
  | classRef => "Class"
  | enum => "Enum"
  | dateTime => "DateTime"

/-- The type names that mean this leaf type. No name means two of them. -/
def spellings : LeafType → List String
  | byte => ["byte", "Byte", "i8", "u8"]
  | short => ["short", "Short", "i16", "u16"]
  | int => ["int", "Integer", "i32", "u32", "isize", "usize"]
  | long => ["long", "Long", "i64", "u64", "i128", "u128"]
  | float => ["float", "Float", "f32"]
  | double => ["double", "Double", "f64"]
  | boolean => ["boolean", "Boolean", "bool"]
  | char => ["char", "Character"]
  | string => ["String", "str"]
  | decimal => ["BigDecimal", "Decimal"]
  | bigInteger => ["BigInteger", "BigInt", "BigUint"]
  | number => ["Number"]
  | classRef => ["Class", "TypeId"]
  | enum => ["Enum"]
  | dateTime =>
    ["Date", "SystemTime", "NaiveDate", "NaiveDateTime", "DateTime", "OffsetDateTime"]

/-- The leaf type with this spelling. -/
def ofName? (name : String) : Option LeafType := all.find? (·.spellings.contains name)

end LeafType

/-- The leaf types of a compilation: the closed list and some names more. -/
structure LeafTable where
  /-- The added names. Neither their order nor how often a name is added matters. -/
  added : List String := []
deriving Repr, DecidableEq

namespace LeafTable

/-- The added names in ascending order, each once. -/
def extra (table : LeafTable) : List String :=
  (table.added.mergeSort (fun a b => decide (a ≤ b))).eraseReps

/-- Whether a type ends every path through it. -/
def isLeaf (table : LeafTable) (ty : TypeRef) : Bool :=
  !ty.isArray && ((LeafType.ofName? ty.name).isSome || table.added.contains ty.name)

/-- The leaf type that a type is, where it is one of the closed list. An added name is a leaf
without being any of them. -/
def classify (ty : TypeRef) : Option LeafType :=
  if ty.isArray then none else LeafType.ofName? ty.name

end LeafTable

end FieldPaths
