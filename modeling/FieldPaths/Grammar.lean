import FieldPaths.Declaration
import FieldPaths.Diagnostic
import FieldPaths.Token

/-!
# The grammar of schema files

A schema file is a sequence of declarations:

```text
file       = decl*
decl       = annotation* ("class" | "interface") NAME "{" member* "}"
member     = annotation* modifier* (field | method) ";"?
modifier   = "final" | "static"
field      = NAME ":" type
method     = "fn" NAME "(" (param ("," param)*)? ")" (":" type)?
param      = NAME ":" type
type       = path ("<" type ("," type)* ">")? ("[" "]")*
annotation = "@" path
path       = NAME ("." NAME)*
```

No member may say a modifier twice. Reading stops at the first fault; the declarations before it
stand.

## Why reading ends

Every rule is a function from the tokens that are left to what it read and the tokens that are
left then, and its type says that there are fewer of them. Every repetition goes on with fewer
tokens than it started with, so nothing has to be counted and no input can keep a rule going.
-/

namespace FieldPaths

/-! ## Faults -/

/-- What could have stood where something else was found. -/
inductive Wanted where
  | declaration
  | typeName
  | memberName
  | type
  | token (kind : TokenKind)
  | annotationName
  | parameterName
  | pathSegment
deriving Repr, DecidableEq

/-- Why a text is no schema file. -/
inductive Fault where
  /-- The first of the tokens that are left, or the end, is not what is wanted there. -/
  | unexpected (wanted : Wanted) (left : List Token)
  /-- A member says a modifier a second time, with the first of the tokens that are left. -/
  | repeatedModifier (modifier : Token) (left : List Token)
  /-- The text ends in the body of the declaration `name`, which starts with `brace`. -/
  | unclosedBody (name brace : Token)
deriving Repr, DecidableEq

namespace Wanted

/-- The kind of diagnostic for something that is missing. -/
def kind : Wanted → DiagnosticKind
  | declaration => .expectedDeclaration
  | typeName => .expectedTypeName
  | memberName => .expectedMemberName
  | type => .expectedType
  | _ => .expectedToken

/-- The detail of the diagnostic, given what was found. Where the kind of the diagnostic does not
say what is missing, the detail does. -/
def detail (found : String) : Wanted → String
  | token kind => kind.describe ++ ", " ++ found
  | annotationName => "annotation name, " ++ found
  | parameterName => "parameter name, " ++ found
  | pathSegment => "identifier after `.`, " ++ found
  | _ => found

end Wanted

/-- The place of a token in the source with the given position. -/
def Token.span (source : Nat) (token : Token) : Span := ⟨source, token.start, token.stop⟩

namespace Fault

/-- What a fault says. Unrecognized characters are reported as such, whatever was wanted. -/
def diagnostic (source : Nat) (text : String) : Fault → Diagnostic
  | unexpected wanted [] =>
    { kind := wanted.kind
      span := ⟨source, text.utf8ByteSize, text.utf8ByteSize⟩
      detail := some (wanted.detail "found end of input") }
  | unexpected wanted (token :: _) =>
    if token.kind = .garbage then
      { kind := .unexpectedCharacter
        span := token.span source
        detail := some ("`" ++ token.text ++ "`") }
    else
      { kind := wanted.kind
        span := token.span source
        detail := some (wanted.detail ("found `" ++ token.text ++ "`")) }
  | repeatedModifier modifier _ =>
    { kind := .duplicateModifier
      span := modifier.span source
      detail := some modifier.text
      fix := some ⟨"remove the repeated modifier", ""⟩ }
  | unclosedBody name brace =>
    { kind := .unclosedBody
      span := brace.span source
      related := [⟨"body of `" ++ name.text ++ "`", name.span source⟩] }

end Fault

namespace Grammar

/-! ## Single tokens -/

/-- What a rule read, and the tokens that are left: fewer than `bound`. -/
structure Parsed (α : Type) (bound : Nat) where
  value : α
  left : List Token
  lt_bound : left.length < bound

theorem length_lt_cons (token : Token) (left : List Token) :
    left.length < (token :: left).length :=
  Nat.lt_succ_self left.length

/-- What leaves fewer tokens than `bound` does so after one more token. -/
theorem Parsed.length_lt {α : Type} {bound : Nat} (parsed : Parsed α bound) :
    parsed.left.length < bound + 1 :=
  Nat.lt_succ_of_lt parsed.lt_bound

/-- The result of a rule that reads at least one token. -/
abbrev Reads (α : Type) (tokens : List Token) := Except Fault (Parsed α tokens.length)

/-- The result of a rule that may read nothing. -/
abbrev MayRead (α : Type) (tokens : List Token) := Except Fault (Parsed α (tokens.length + 1))

/-- The first token, if it is of the given kind. -/
def eat (kind : TokenKind) : (tokens : List Token) → Option (Parsed Token tokens.length)
  | [] => none
  | token :: left => if token.kind = kind then some ⟨token, left, length_lt_cons token left⟩ else none

/-- A token of the given kind. -/
def expect (wanted : Wanted) (kind : TokenKind) (tokens : List Token) : Reads Token tokens :=
  match eat kind tokens with
  | some token => .ok token
  | none => .error (.unexpected wanted tokens)

/-- A token that stands for itself. -/
def expectToken (kind : TokenKind) (tokens : List Token) : Reads Token tokens :=
  expect (.token kind) kind tokens

/-! ## Paths and types -/

/-- The segments of a path after `first`: those that qualify, and the last. -/
def pathFrom (first : String) (tokens : List Token) : MayRead (List String × String) tokens :=
  match eat .dot tokens with
  | none => .ok ⟨([], first), tokens, by omega⟩
  | some dot =>
    have := dot.lt_bound
    do
      let segment ← expect .pathSegment .ident dot.left
      have := segment.lt_bound
      let path ← pathFrom segment.value.text segment.left
      have := path.lt_bound
      return ⟨(first :: path.value.1, path.value.2), path.left, by omega⟩
  termination_by tokens.length

/-- A dotted path, told apart into the segments that qualify and the last. -/
def path (wanted : Wanted) (tokens : List Token) : Reads (List String × String) tokens := do
  let first ← expect wanted .ident tokens
  let path ← pathFrom first.value.text first.left
  return ⟨path.value, path.left, by have := first.lt_bound; have := path.lt_bound; omega⟩

/-- The array dimensions after a type. -/
def dimensions (ty : TypeRef) (tokens : List Token) : MayRead TypeRef tokens :=
  match eat .lBracket tokens with
  | none => .ok ⟨ty, tokens, by omega⟩
  | some bracket =>
    have := bracket.lt_bound
    do
      let close ← expectToken .rBracket bracket.left
      have := close.lt_bound
      let ty ← dimensions ty.arrayOf close.left
      return ⟨ty.value, ty.left, by have := ty.lt_bound; omega⟩
  termination_by tokens.length

mutual

/-- A type. -/
def type (tokens : List Token) : Reads TypeRef tokens := do
  let path ← path .type tokens
  have := path.lt_bound
  let named : TypeRef := ⟨path.value.1, path.value.2, [], 0⟩
  match eat .lAngle path.left with
  | none =>
    let ty ← dimensions named path.left
    return ⟨ty.value, ty.left, by have := ty.lt_bound; omega⟩
  | some angle =>
    have := angle.lt_bound
    let args ← typeArgs angle.left
    have := args.lt_bound
    let close ← expectToken .rAngle args.left
    let ty ← dimensions (named.withArgs args.value) close.left
    return ⟨ty.value, ty.left, by have := close.lt_bound; have := ty.lt_bound; omega⟩
  termination_by 2 * tokens.length

/-- One type or more, with commas between them. -/
def typeArgs (tokens : List Token) : Reads (List TypeRef) tokens := do
  let first ← type tokens
  have := first.lt_bound
  match eat .comma first.left with
  | none => return ⟨[first.value], first.left, by omega⟩
  | some comma =>
    have := comma.lt_bound
    let more ← typeArgs comma.left
    return ⟨first.value :: more.value, more.left, by have := more.lt_bound; omega⟩
  termination_by 2 * tokens.length + 1

end

/-! ## Members -/

/-- The names of the annotations that come first, each its last path segment. -/
def annotations (tokens : List Token) : MayRead (List String) tokens :=
  match eat .at tokens with
  | none => .ok ⟨[], tokens, by omega⟩
  | some mark =>
    have := mark.lt_bound
    do
      let name ← path .annotationName mark.left
      have := name.lt_bound
      let more ← annotations name.left
      return ⟨name.value.2 :: more.value, more.left, by have := more.lt_bound; omega⟩
  termination_by tokens.length

/-- The modifiers that come first, added to those already said. -/
def modifiers (said : Modifiers) : (tokens : List Token) → MayRead Modifiers tokens
  | [] => .ok ⟨said, [], Nat.lt_succ_self _⟩
  | token :: left =>
    match token.kind with
    | .kwFinal =>
      if said.isFinal then .error (.repeatedModifier token (token :: left))
      else do
        let all ← modifiers { said with isFinal := true } left
        return ⟨all.value, all.left, all.length_lt⟩
    | .kwStatic =>
      if said.isStatic then .error (.repeatedModifier token (token :: left))
      else do
        let all ← modifiers { said with isStatic := true } left
        return ⟨all.value, all.left, all.length_lt⟩
    | _ => .ok ⟨said, token :: left, Nat.lt_succ_self _⟩

/-- A member of a declaration. -/
inductive Member where
  | field (field : Field Span)
  | method (method : Method)
deriving Repr, DecidableEq

/-- A field, without what comes before its name. -/
def field (source : Nat) (attributes : List String) (modifiers : Modifiers) (tokens : List Token) :
    Reads (Field Span) tokens := do
  let name ← expect .memberName .ident tokens
  let colon ← expectToken .colon name.left
  let ty ← type colon.left
  return {
    value :=
      { name := name.value.text
        type := ty.value
        modifiers := modifiers
        attributes := attributes
        location := name.value.span source }
    left := ty.left
    lt_bound := by
      have := name.lt_bound; have := colon.lt_bound; have := ty.lt_bound
      omega }

/-- One parameter or more, up to the closing parenthesis. Nothing of a parameter is kept. -/
def parameters (tokens : List Token) : Reads Unit tokens := do
  let name ← expect .parameterName .ident tokens
  have := name.lt_bound
  let colon ← expectToken .colon name.left
  have := colon.lt_bound
  let ty ← type colon.left
  have := ty.lt_bound
  match eat .comma ty.left with
  | some comma =>
    have := comma.lt_bound
    let more ← parameters comma.left
    return ⟨(), more.left, by have := more.lt_bound; omega⟩
  | none =>
    let close ← expectToken .rParen ty.left
    return ⟨(), close.left, by have := close.lt_bound; omega⟩
  termination_by tokens.length

/-- A method, without what comes before it. -/
def method (modifiers : Modifiers) (tokens : List Token) : Reads Method tokens := do
  let word ← expectToken .kwFn tokens
  have := word.lt_bound
  let name ← expect .memberName .ident word.left
  have := name.lt_bound
  let paren ← expectToken .lParen name.left
  have := paren.lt_bound
  let close ←
    match eat .rParen paren.left with
    | some close => pure (⟨(), close.left, close.lt_bound⟩ : Parsed Unit paren.left.length)
    | none => parameters paren.left
  have := close.lt_bound
  let method : Method := ⟨name.value.text, modifiers.isStatic⟩
  match eat .colon close.left with
  | none => return ⟨method, close.left, by omega⟩
  | some colon =>
    let ty ← type colon.left
    return ⟨method, ty.left, by have := colon.lt_bound; have := ty.lt_bound; omega⟩

/-- A field or a method, without what comes before it. -/
def fieldOrMethod (source : Nat) (attributes : List String) (modifiers : Modifiers) :
    (tokens : List Token) → Reads Member tokens
  | [] => .error (.unexpected .memberName [])
  | token :: left =>
    match token.kind with
    | .kwFn => do
      let method ← method modifiers (token :: left)
      return ⟨.method method.value, method.left, method.lt_bound⟩
    | .ident => do
      let field ← field source attributes modifiers (token :: left)
      return ⟨.field field.value, field.left, field.lt_bound⟩
    | _ => .error (.unexpected .memberName (token :: left))

/-- A member, with a semicolon if there is one. -/
def member (source : Nat) (tokens : List Token) : Reads Member tokens := do
  let marks ← annotations tokens
  have := marks.lt_bound
  let mods ← modifiers {} marks.left
  have := mods.lt_bound
  let member ← fieldOrMethod source marks.value mods.value mods.left
  have := member.lt_bound
  match eat .semicolon member.left with
  | none => return ⟨member.value, member.left, by omega⟩
  | some semicolon =>
    return ⟨member.value, semicolon.left, by have := semicolon.lt_bound; omega⟩

/-! ## Declarations -/

/-- The members of a declaration, up to the closing brace. -/
def body (source : Nat) (name brace : Token) (tokens : List Token) : Reads (List Member) tokens :=
  match eat .rBrace tokens with
  | some close => .ok ⟨[], close.left, close.lt_bound⟩
  | none =>
    if tokens.isEmpty then .error (.unclosedBody name brace)
    else do
      let first ← member source tokens
      have := first.lt_bound
      let more ← body source name brace first.left
      return ⟨first.value :: more.value, more.left, by have := more.lt_bound; omega⟩
  termination_by tokens.length

/-- The word that starts a declaration. -/
def declKind : (tokens : List Token) → Reads DeclKind tokens
  | [] => .error (.unexpected .declaration [])
  | token :: left =>
    match token.kind with
    | .kwClass => .ok ⟨.cls, left, length_lt_cons token left⟩
    | .kwInterface => .ok ⟨.interface, left, length_lt_cons token left⟩
    | _ => .error (.unexpected .declaration (token :: left))

/-- A declaration. -/
def declaration (source : Nat) (tokens : List Token) : Reads (Declaration Span) tokens := do
  let marks ← annotations tokens
  let kind ← declKind marks.left
  let name ← expect .typeName .ident kind.left
  let brace ← expectToken .lBrace name.left
  let members ← body source name.value brace.value brace.left
  return {
    value :=
      { name := name.value.text
        kind := kind.value
        attributes := marks.value
        fields := members.value.filterMap fun
          | .field field => some field
          | .method _ => none
        methods := members.value.filterMap fun
          | .field _ => none
          | .method method => some method
        location := name.value.span source }
    left := members.left
    lt_bound := by
      have := marks.lt_bound; have := kind.lt_bound; have := name.lt_bound
      have := brace.lt_bound; have := members.lt_bound
      omega }

/-- The declarations up to the first fault, and the fault. -/
def declarations (source : Nat) (tokens : List Token) :
    List (Declaration Span) × Option Fault :=
  if tokens.isEmpty then ([], none)
  else
    match declaration source tokens with
    | .error fault => ([], some fault)
    | .ok first =>
      have := first.lt_bound
      let more := declarations source first.left
      (first.value :: more.1, more.2)
  termination_by tokens.length

end Grammar

end FieldPaths
