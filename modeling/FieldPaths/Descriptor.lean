import FieldPaths.Declaration
import FieldPaths.LeafTable

/-!
# Descriptors

A descriptor gives a field a name that programs can refer to. Every eligible field `f` has a
constant `_f` whose value is the field's own name; a field whose type is no leaf also has a builder
`_f` that puts `f` and a dot before the path of a field further in.

A field is eligible when it is neither final nor static and carries no marker at all. There is no
marker that keeps a field in.

## Conflicts

A descriptor must not take the name of a static member that the declaration has of its own. The
constant is checked against static fields and the builder against static functions, so that both
can exist beside each other. Conflicts between two descriptors are not looked for: they need two
fields of one name.

Nothing stops at a conflict. The descriptor is made all the same and the conflict is reported
beside it, located at the field.
-/

namespace FieldPaths

/-! ## Eligibility -/

/-- Why a field has no descriptor. -/
inductive Exclusion where
  | final
  | static
  | annotated
deriving Repr, DecidableEq

/-- The word for the reason. -/
def Exclusion.text : Exclusion → String
  | .final => "final"
  | .static => "static"
  | .annotated => "annotated"

/-- The first reason that excludes a field, or nothing for an eligible one. -/
def Field.exclusion {L : Type} (field : Field L) : Option Exclusion :=
  if field.modifiers.isFinal then some .final
  else if field.modifiers.isStatic then some .static
  else if !field.attributes.isEmpty then some .annotated
  else none

/-- Whether a field has a descriptor. -/
def Field.isEligible {L : Type} (field : Field L) : Bool := field.exclusion.isNone

/-! ## The members of a descriptor -/

/-- What every name made for a field starts with. -/
def descriptorMark : String := "_"

/-- What separates the names of a path. -/
def pathSeparator : String := "."

/-- The name of a builder's only parameter. -/
def subpathParam : String := "subpath"

/-- The name of the members made for a field. -/
def descriptorName (fieldName : String) : String := descriptorMark ++ fieldName

/-- A constant that holds the name of a field. -/
structure FieldConstant where
  name : String
  value : String
deriving Repr, DecidableEq

/-- A function that puts the name of a field before a path. -/
structure PathBuilder where
  name : String
  param : String
  field : String
  /-- What the builder puts before its argument, the separator included. -/
  lead : String
deriving Repr, DecidableEq

/-- The path that a builder makes of `subpath`, which is taken as it is. -/
def PathBuilder.apply (builder : PathBuilder) (subpath : String) : String :=
  builder.field ++ pathSeparator ++ subpath

/-- The members made for one field. -/
structure Descriptor where
  field : String
  constant : FieldConstant
  builder : Option PathBuilder
deriving Repr, DecidableEq

/-- Whether paths may go on through the field. -/
def Descriptor.isComposite (descriptor : Descriptor) : Bool := descriptor.builder.isSome

/-- The descriptor of a field, whether or not it is eligible. -/
def Field.descriptor {L : Type} (field : Field L) (leaves : LeafTable) : Descriptor where
  field := field.name
  constant := ⟨descriptorName field.name, field.name⟩
  builder :=
    if leaves.isLeaf field.type then none
    else some ⟨descriptorName field.name, subpathParam, field.name, field.name ++ pathSeparator⟩

/-! ## Conflicts -/

/-- What is wrong with a declaration that descriptors were asked for. -/
inductive SchemaError where
  /-- An interface cannot have descriptors. -/
  | invalidTarget (typeName : String)
  /-- A descriptor takes the name of a static member. -/
  | duplicateDescriptor (field name : String) (kind : MemberKind)
deriving Repr, DecidableEq

/-- The wording of a schema error. -/
def SchemaError.message : SchemaError → String
  | .invalidTarget typeName => "`@Schema` cannot be applied to interface `" ++ typeName ++ "`"
  | .duplicateDescriptor field name kind =>
    "schema for field `" ++ field ++ "` already exists: static " ++ kind.text ++ " `" ++ name ++ "`"

/-- A schema error with the place it is reported at. -/
structure Located (L : Type) where
  error : SchemaError
  location : L
deriving Repr, DecidableEq

/-- The conflict of a name made for `field` with a static member of the given kind. -/
def Declaration.conflict? {L : Type} (decl : Declaration L) (field : Field L) (name : String)
    (kind : MemberKind) : Option (Located L) :=
  if decl.staticMembers.contains ⟨name, kind⟩ then
    some ⟨.duplicateDescriptor field.name name kind, field.location⟩
  else none

/-- The conflicts of a field's descriptor: that of its constant, then that of its builder. -/
def Declaration.conflicts {L : Type} (decl : Declaration L) (leaves : LeafTable)
    (field : Field L) : List (Located L) :=
  let descriptor := field.descriptor leaves
  (decl.conflict? field descriptor.constant.name .field).toList ++
    (descriptor.builder.bind fun builder => decl.conflict? field builder.name .function).toList

/-! ## Whole declarations -/

/-- The descriptors of a declaration and the errors found on the way. -/
structure Synthesis (L : Type) where
  typeName : String
  /-- One for each eligible field, in the order of the fields. -/
  descriptors : List Descriptor
  errors : List (Located L)
deriving Repr, DecidableEq

namespace Synthesis

variable {L : Type}

/-- Whether no error was found. -/
def isValid (synthesis : Synthesis L) : Bool := synthesis.errors.isEmpty

end Synthesis

/-- The constants of some descriptors, in their order. -/
def constantsOf (descriptors : List Descriptor) : List FieldConstant :=
  descriptors.map (·.constant)

/-- The builders of some descriptors, in their order. -/
def buildersOf (descriptors : List Descriptor) : List PathBuilder :=
  descriptors.filterMap (·.builder)

/-- The fields of a declaration that get descriptors. -/
def Declaration.eligibleFields {L : Type} (decl : Declaration L) : List (Field L) :=
  decl.fields.filter (·.isEligible)

/-- The descriptors of a declaration. An interface has none, and asking for them is its error. -/
def Declaration.synthesis {L : Type} (decl : Declaration L) (leaves : LeafTable) : Synthesis L :=
  match decl.kind with
  | .interface => ⟨decl.name, [], [⟨.invalidTarget decl.name, decl.location⟩]⟩
  | .cls =>
    ⟨decl.name, decl.eligibleFields.map (·.descriptor leaves),
      decl.eligibleFields.flatMap (decl.conflicts leaves)⟩

end FieldPaths
