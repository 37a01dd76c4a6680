/-!
# References to declared types

A field names its type by a dotted path, with generic arguments and array dimensions: the type
`java.util.Map<String, Line[]>[]` is the path `java.util.Map` with two arguments and one
dimension. Nothing is resolved: what a type *is* depends on its last path segment alone
(`FieldPaths.LeafTable`).

A path has at least one segment. The type says so by keeping the last one, the simple name, apart
from the segments that qualify it.
-/

namespace FieldPaths

/-- A nominal reference to a type. -/
structure TypeRef where
  /-- The path segments before the last one. -/
  qualifier : List String
  /-- The last path segment. -/
  name : String
  /-- The generic arguments, in order. -/
  args : List TypeRef
  /-- The number of array dimensions, at most `maxArrayDepth`. -/
  arrayDepth : Nat
deriving Repr

/-- Why a list of segments is no path. -/
inductive PathError where
  | noSegments
deriving Repr, DecidableEq

/-- The wording of a path error. -/
def PathError.message : PathError → String
  | .noSegments => "type path needs at least one segment"

namespace TypeRef

mutual

/-- Decides whether two types are the same. -/
def decEq : (s t : TypeRef) → Decidable (s = t)
  | ⟨q, n, as, d⟩, ⟨q', n', as', d'⟩ =>
    match decEqList as as' with
    | isTrue h =>
      if h' : q = q' ∧ n = n' ∧ d = d' then isTrue (by obtain ⟨rfl, rfl, rfl⟩ := h'; rw [h])
      else isFalse fun e => h' (by injection e with hq hn _ hd; exact ⟨hq, hn, hd⟩)
    | isFalse h => isFalse fun e => h (by injection e)

/-- Decides whether two lists of types are the same. -/
def decEqList : (ss ts : List TypeRef) → Decidable (ss = ts)
  | [], [] => isTrue rfl
  | [], _ :: _ => isFalse nofun
  | _ :: _, [] => isFalse nofun
  | s :: ss, t :: ts =>
    match decEq s t, decEqList ss ts with
    | isTrue h, isTrue h' => isTrue (by rw [h, h'])
    | isFalse h, _ => isFalse fun e => h (by injection e)
    | _, isFalse h => isFalse fun e => h (by injection e)

end

instance : DecidableEq TypeRef := decEq

/-- Dimensions beyond this many are not counted. -/
def maxArrayDepth : Nat := 255

/-- A type written as a single name. -/
def named (name : String) : TypeRef := ⟨[], name, [], 0⟩

/-- The type with the given path. -/
def ofSegments : List String → Except PathError TypeRef
  | [] => .error .noSegments
  | segment :: more => .ok ⟨(segment :: more).dropLast, (segment :: more).getLast (by simp), [], 0⟩

/-- The whole path. It is never empty. -/
def segments (ty : TypeRef) : List String := ty.qualifier ++ [ty.name]

/-- The same path with the given generic arguments. -/
def withArgs (ty : TypeRef) (args : List TypeRef) : TypeRef := { ty with args := args }

/-- One array dimension more, as long as they are counted. -/
def arrayOf (ty : TypeRef) : TypeRef :=
  { ty with arrayDepth := min (ty.arrayDepth + 1) maxArrayDepth }

/-- Whether the type has an array dimension. -/
def isArray (ty : TypeRef) : Bool := 0 < ty.arrayDepth

/-- The brackets of `depth` array dimensions. -/
def brackets : Nat → String
  | 0 => ""
  | depth + 1 => "[]" ++ brackets depth

mutual

/-- A type as it is written in a schema: path, arguments in angle brackets, dimensions. -/
def text : TypeRef → String
  | ⟨qualifier, name, args, arrayDepth⟩ =>
    ".".intercalate (qualifier ++ [name]) ++ argsText args ++ brackets arrayDepth

/-- The arguments with their angle brackets, or nothing where there are none. -/
def argsText : List TypeRef → String
  | [] => ""
  | arg :: more => "<" ++ text arg ++ moreArgsText more ++ ">"

/-- The arguments after the first, each led by a comma. -/
def moreArgsText : List TypeRef → String
  | [] => ""
  | arg :: more => ", " ++ text arg ++ moreArgsText more

end

end TypeRef

end FieldPaths
