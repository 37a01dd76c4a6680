import FieldPaths.Declaration
import FieldPaths.Rust.Type

/-!
# Struct items

A struct of a program with all that its tokens say: attributes, visibility, generic parameters,
the conditions on them, and fields. `StructItem.tokens` writes it out and
`StructItem.declaration` is the declaration that descriptors are made for.

A struct with named fields or without fields is a class. One whose fields have no names is an
interface, so that no descriptors can be asked for. The markers of a field are its attributes by
the last segment of their paths; comments that document a field are none.
-/

namespace FieldPaths.Rust

/-! ## Attributes -/

/-- An attribute. -/
structure Attr where
  isFromRoot : Bool
  /-- The segments of its path. -/
  path : List String
  /-- What is after the path. -/
  rest : List Tree
deriving Repr, BEq

namespace Attr

/-- Whether the path of an attribute is one name. -/
def isNamed (attr : Attr) (name : String) : Bool := !attr.isFromRoot && attr.path == [name]

/-- The tokens of an attribute. -/
def tokens (attr : Attr) : List Tree :=
  Tree.attr <| (if attr.isFromRoot then Tree.op "::" else []) ++
    joined (attr.path.map fun name => [.ident name]) none ++ attr.rest

/-- The tokens of some attributes. -/
def tokensOf (attrs : List Attr) : List Tree := attrs.flatMap tokens

/-- The name of the attributes that document an item. -/
def docName : String := "doc"

/-- The name of the attribute that only keeps a field from having a descriptor. -/
def transientName : String := "transient"

/-- The names of the attributes that do not document. -/
def markers (attrs : List Attr) : List String :=
  (attrs.filter (!·.isNamed docName)).filterMap (·.path.getLast?)

end Attr

/-! ## Generic parameters -/

/-- What a generic parameter stands for. -/
inductive ParamKind where
  | lifetime
  | type
  | const
deriving Repr, DecidableEq

/-- A generic parameter. -/
structure Param where
  kind : ParamKind
  attrs : List Attr
  name : String
  /-- The bounds of a lifetime or a type, and the type of a constant. -/
  bounds : List Tree
  default : List Tree
deriving Repr

namespace Param

/-- The tokens of a parameter where it is used. -/
def use (param : Param) : List Tree :=
  match param.kind with
  | .lifetime => Tree.lifetime param.name
  | _ => [.ident param.name]

/-- The tokens of a parameter where it is declared, without its default. -/
def declared (param : Param) : List Tree :=
  Attr.tokensOf param.attrs ++
    (if param.kind = .const then [.ident "const"] else []) ++ param.use ++
    if param.bounds.isEmpty then [] else Tree.op ":" ++ param.bounds

/-- The tokens of a parameter where it is declared. -/
def tokens (param : Param) : List Tree :=
  param.declared ++ if param.default.isEmpty then [] else Tree.op "=" ++ param.default

end Param

/-- Generic parameters and the conditions on them. -/
structure Generics where
  params : List Param := []
  hasTrailingComma : Bool := false
  conditions : List Tree := []
deriving Repr

namespace Generics

/-- The parameters in brackets, each as `tokens` writes it. Nothing is written for none. -/
def angled (generics : Generics) (tokens : Param → List Tree) : List Tree :=
  if generics.params.isEmpty then []
  else Tree.op "<" ++
    separated (generics.params.map fun param => (param.kind == .lifetime, tokens param))
      generics.hasTrailingComma ++ Tree.op ">"

/-- The conditions with the word before them. Nothing is written for none. -/
def whereTokens (generics : Generics) : List Tree :=
  if generics.conditions.isEmpty then [] else .ident "where" :: generics.conditions

end Generics

/-! ## Structs -/

/-- A named field. -/
structure FieldItem where
  attrs : List Attr
  visibility : List Tree
  name : String
  type : Ty

namespace FieldItem

/-- The tokens of a field. -/
def tokens (field : FieldItem) : List Tree :=
  Attr.tokensOf field.attrs ++ field.visibility ++ [.ident field.name] ++ Tree.op ":" ++
    field.type.tokens

/-- A field without the attribute that only keeps it from having a descriptor. -/
def withoutTransient (field : FieldItem) : FieldItem :=
  { field with attrs := field.attrs.filter (!·.isNamed Attr.transientName) }

/-- A field as a field of a declaration. -/
def lowered (field : FieldItem) : Field Unit where
  name := unraw field.name
  type := field.type.typeRef
  attributes := Attr.markers field.attrs
  location := ()

end FieldItem

/-- The fields of a struct. -/
inductive Fields where
  | named (fields : List FieldItem) (hasTrailingComma : Bool)
  /-- Fields without names. -/
  | tuple (tokens : List Tree)
  | unit

/-- The named fields among the fields of a struct. -/
def Fields.list : Fields → List FieldItem
  | named fields _ => fields
  | _ => []

/-- A struct item. -/
structure StructItem where
  attrs : List Attr
  visibility : List Tree
  name : String
  generics : Generics
  fields : Fields

/-- The declaration that a type is that can have no descriptors. -/
def interfaceLike (name : String) : Declaration Unit where
  name := unraw name
  kind := .interface
  attributes := [Declaration.schemaMarker]
  fields := []
  location := ()

namespace StructItem

/-- The tokens of a struct. The conditions on its parameters are before named fields and after
others. -/
def tokens (item : StructItem) : List Tree :=
  let front := Attr.tokensOf item.attrs ++ item.visibility ++ [.ident "struct", .ident item.name] ++
    item.generics.angled Param.tokens
  match item.fields with
  | .named fields hasTrailingComma =>
    front ++ item.generics.whereTokens ++
      [.braces (separated (fields.map fun field => (false, field.tokens)) hasTrailingComma)]
  | .tuple content => front ++ [.parens content] ++ item.generics.whereTokens ++ Tree.op ";"
  | .unit => front ++ item.generics.whereTokens ++ Tree.op ";"

/-- A struct without the attributes of its fields that only keep them from having descriptors. -/
def withoutTransient (item : StructItem) : StructItem :=
  match item.fields with
  | .named fields hasTrailingComma =>
    { item with fields := .named (fields.map (·.withoutTransient)) hasTrailingComma }
  | _ => item

/-- The declaration that a struct is. It is marked, because descriptors are asked for. -/
def declaration (item : StructItem) : Declaration Unit :=
  match item.fields with
  | .tuple _ => interfaceLike item.name
  | fields =>
    { name := unraw item.name
      kind := .cls
      attributes := [Declaration.schemaMarker]
      fields := fields.list.map (·.lowered)
      location := () }

end StructItem

/-- An item, as far as descriptors can be asked for it. -/
inductive Item where
  | struct (item : StructItem)
  /-- An enum, a trait or a union. -/
  | otherType (name : String)
  /-- Anything that declares no type. -/
  | other

end FieldPaths.Rust
