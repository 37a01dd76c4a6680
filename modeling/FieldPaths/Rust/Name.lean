/-!
# Names in generated Rust

Descriptors are written as Rust items, so the names of a schema have to be written as Rust
identifiers. A name that is a keyword has a raw form (`r#type`), except for the few that Rust
keeps for paths; a name with a character outside the ASCII letters, digits and `_` has none, and
is refused rather than changed.
-/

namespace FieldPaths.Rust

/-- The keywords of Rust that have a raw form, reserved ones included. -/
def keywords : List String :=
  ["abstract", "as", "async", "await", "become", "box", "break", "const", "continue", "do", "dyn",
    "else", "enum", "extern", "false", "final", "fn", "for", "gen", "if", "impl", "in", "let",
    "loop", "macro", "match", "mod", "move", "mut", "override", "priv", "pub", "ref", "return",
    "static", "struct", "trait", "true", "try", "type", "typeof", "unsafe", "unsized", "use",
    "virtual", "where", "while", "yield"]

/-- The names that Rust keeps for itself and that have no raw form. -/
def reservedNames : List String := ["_", "self", "Self", "super", "crate"]

/-- Whether a name is a keyword with a raw form. -/
def isKeyword (name : String) : Bool := keywords.contains name

/-- A name in identifier position: a keyword takes its raw form. -/
def identifier (name : String) : String := if isKeyword name then "r#" ++ name else name

/-- The characters an identifier may start with. -/
def isIdentifierStart (c : Char) : Bool := c == '_' || c.isAlpha

/-- The characters an identifier may go on with. -/
def isIdentifierContinue (c : Char) : Bool := c == '_' || c.isAlphanum

/-- Whether a name can be written as an identifier, in its raw form if need be. -/
def isIdentifier (name : String) : Bool :=
  !reservedNames.contains name &&
    match name.toList with
    | [] => false
    | c :: more => isIdentifierStart c && more.all isIdentifierContinue

/-- A name without the mark of the raw form. -/
def unraw (name : String) : String :=
  match name.toList with
  | 'r' :: '#' :: more => String.ofList more
  | _ => name

/-- The name of the companion that holds the path builders of a type. -/
def companionName (typeName suffix : String) : String := unraw typeName ++ suffix

end FieldPaths.Rust
