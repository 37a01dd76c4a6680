import FieldPaths.TypeRef

/-!
# Declared types

The declarations that descriptors are made for, as both kinds of input supply them: a schema file
and a struct item of a program. They differ in what a location is, so the location is a parameter.

Everything is kept in the order of the declaration. A method keeps only what a name clash can be
about.
-/

namespace FieldPaths

/-- What kind of type is declared. Only a class can have descriptors. -/
inductive DeclKind where
  | cls
  | interface
deriving Repr, DecidableEq

/-- The word that declares the kind. -/
def DeclKind.text : DeclKind → String
  | .cls => "class"
  | .interface => "interface"

/-- The modifiers of a member. -/
structure Modifiers where
  isFinal : Bool := false
  isStatic : Bool := false
deriving Repr, DecidableEq

/-- A field of a declaration. -/
structure Field (L : Type) where
  name : String
  type : TypeRef
  modifiers : Modifiers := {}
  /-- The names of the markers on the field, each the last segment of its path. -/
  attributes : List String := []
  location : L
deriving Repr, DecidableEq

/-- A method of a declaration. -/
structure Method where
  name : String
  isStatic : Bool
deriving Repr, DecidableEq

/-- A declared type. -/
structure Declaration (L : Type) where
  name : String
  kind : DeclKind
  /-- The names of the markers on the type, each the last segment of its path. -/
  attributes : List String := []
  fields : List (Field L) := []
  methods : List Method := []
  location : L
deriving Repr, DecidableEq

/-- The two kinds of static members. A name may be taken once by each of them. -/
inductive MemberKind where
  | field
  | function
deriving Repr, DecidableEq

/-- The word for the kind of a member. -/
def MemberKind.text : MemberKind → String
  | .field => "field"
  | .function => "function"

/-- A static member that a declaration has of its own. -/
structure StaticMember where
  name : String
  kind : MemberKind
deriving Repr, DecidableEq

namespace Declaration

variable {L : Type}

/-- The marker that selects a declaration when no names are asked for. -/
def schemaMarker : String := "Schema"

/-- Whether the declaration carries a marker of this name. -/
def hasAttribute (decl : Declaration L) (name : String) : Bool := decl.attributes.contains name

/-- The static members of a declaration: its static fields, then its static methods. -/
def staticMembers (decl : Declaration L) : List StaticMember :=
  (decl.fields.filter (·.modifiers.isStatic)).map (⟨·.name, .field⟩) ++
    (decl.methods.filter (·.isStatic)).map (⟨·.name, .function⟩)

end Declaration

end FieldPaths
