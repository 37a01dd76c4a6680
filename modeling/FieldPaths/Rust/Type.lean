import FieldPaths.Rust.Name
import FieldPaths.Rust.Tree
import FieldPaths.TypeRef

/-!
# Rust types

The types of a program as far as a path through fields can tell them apart: a path, the wrappers
that do not change what a path goes through (references, parentheses, invisible groups), the
dimensions of arrays and slices, and all other types as the tokens they are made of.

`Ty.tokens` writes a type out, and `Ty.typeRef` is what a schema would call it. A path
keeps the names of its segments, without the marks of raw names, and the type arguments of its
last segment. Other types are named by their text, so none of them has the name of a path.
-/

namespace FieldPaths.Rust

mutual

/-- A type. -/
inductive Ty where
  /-- A path: the segments before the last one, and the last one. -/
  | path (lead : PathLead) (qualifier : List Segment) (last : Segment)
  /-- A reference, with its lifetime and whether it may change what it refers to. -/
  | reference (modifiers : List Tree) (elem : Ty)
  | paren (elem : Ty)
  | group (elem : Ty)
  | array (elem : Ty) (length : List Tree)
  | slice (elem : Ty)
  /-- A type of any other form. -/
  | other (tokens : List Tree)

/-- What stands before the segments of a path. -/
inductive PathLead where
  | plain
  /-- The path starts from the root. -/
  | fromRoot
  /-- The path goes on from a type, which is taken as an instance of the trait that the first
  `traitSize` segments name. -/
  | member (of : Ty) (isTraitFromRoot : Bool) (traitSize : Nat)

/-- A segment of a path. -/
inductive Segment where
  | mk (name : String) (args : SegmentArgs)

/-- The arguments of a segment. -/
inductive SegmentArgs where
  | none
  | angle (hasColons : Bool) (args : List Arg) (hasTrailingComma : Bool)

/-- An argument of a segment. -/
inductive Arg where
  | lifetime (name : String)
  | type (type : Ty)
  /-- A constant, a binding or a bound. -/
  | other (tokens : List Tree)

end

/-- The name of a segment. -/
def Segment.name : Segment → String
  | mk name _ => name

/-- The arguments of a segment. -/
def Segment.args : Segment → SegmentArgs
  | mk _ args => args

/-! ## Tokens -/

/-- Items with commas between them, lifetimes first. An item keeps the comma that was after it, so
there may be one at the end. -/
def separated (items : List (Bool × List Tree)) (hasTrailingComma : Bool) : List Tree :=
  let count := items.length
  let marked := items.zipIdx.map fun ((isLifetime, tokens), index) =>
    (isLifetime, tokens, index + 1 < count || hasTrailingComma)
  let ordered := marked.filter (·.1) ++ marked.filter (!·.1)
  ordered.zipIdx.flatMap fun ((_, tokens, hasComma), index) =>
    tokens ++ if index + 1 < count || hasComma then Tree.op "," else []

/-- Segments with colons between them. Where a type is a member of a trait, the closing bracket is
before the segment with the given position. -/
def joined (segments : List (List Tree)) (close : Option Nat) : List Tree :=
  segments.zipIdx.flatMap fun (tokens, index) =>
    (if close = some index then Tree.op ">" ++ Tree.op "::"
      else if index = 0 then [] else Tree.op "::") ++ tokens

mutual

/-- The tokens of a type. -/
def Ty.tokens : Ty → List Tree
  | .path lead qualifier last =>
    let (before, close) := lead.tokens
    before ++ joined (segmentTokens qualifier ++ [last.tokens]) close
  | .reference modifiers elem => Tree.op "&" ++ modifiers ++ elem.tokens
  | .paren elem => [.parens elem.tokens]
  | .group elem => [.group .invisible elem.tokens]
  | .array elem length => [.group .bracket (elem.tokens ++ Tree.op ";" ++ length)]
  | .slice elem => [.group .bracket elem.tokens]
  | .other tokens => tokens

/-- The tokens before the segments of a path, and the position of the segment that a bracket is
closed before. -/
def PathLead.tokens : PathLead → List Tree × Option Nat
  | .plain => ([], none)
  | .fromRoot => (Tree.op "::", none)
  | .member type isTraitFromRoot traitSize =>
    (Tree.op "<" ++ type.tokens ++
      (if traitSize = 0 then []
        else Tree.ident "as" :: if isTraitFromRoot then Tree.op "::" else []),
      some traitSize)

/-- The tokens of a segment. -/
def Segment.tokens : Segment → List Tree
  | .mk name args => .ident name :: args.tokens

/-- The tokens of segments, each by itself. -/
def segmentTokens : List Segment → List (List Tree)
  | [] => []
  | segment :: more => segment.tokens :: segmentTokens more

/-- The tokens of the arguments of a segment. -/
def SegmentArgs.tokens : SegmentArgs → List Tree
  | .none => []
  | .angle hasColons args hasTrailingComma =>
    (if hasColons then Tree.op "::" else []) ++ Tree.op "<" ++
      separated (argTokens args) hasTrailingComma ++ Tree.op ">"

/-- The tokens of arguments, each by itself and with whether it is a lifetime. -/
def argTokens : List Arg → List (Bool × List Tree)
  | [] => []
  | arg :: more => arg.tokens :: argTokens more

/-- The tokens of an argument, and whether it is a lifetime. -/
def Arg.tokens : Arg → Bool × List Tree
  | .lifetime name => (true, Tree.lifetime name)
  | .type type => (false, type.tokens)
  | .other tokens => (false, tokens)

end

/-- The text of a type. -/
def Ty.text (type : Ty) : String := Tree.textOf type.tokens

/-! ## The type that a schema would name -/

mutual

/-- The type that a path through a field of this type goes on in. -/
def Ty.typeRef : Ty → TypeRef
  | .path _ qualifier last =>
    ⟨qualifier.map (unraw ·.name), unraw last.name, last.typeArgs, 0⟩
  | .reference _ elem => elem.typeRef
  | .paren elem => elem.typeRef
  | .group elem => elem.typeRef
  | .array elem _ => elem.typeRef.arrayOf
  | .slice elem => elem.typeRef.arrayOf
  | .other tokens => .named (Tree.textOf tokens)

/-- The type arguments of a segment. -/
def Segment.typeArgs : Segment → List TypeRef
  | .mk _ args => args.typeRefs

/-- The types among the arguments of a segment. -/
def SegmentArgs.typeRefs : SegmentArgs → List TypeRef
  | .none => []
  | .angle _ args _ => argTypeRefs args

/-- The types among some arguments. -/
def argTypeRefs : List Arg → List TypeRef
  | [] => []
  | .type type :: more => type.typeRef :: argTypeRefs more
  | _ :: more => argTypeRefs more

end

end FieldPaths.Rust
