import FieldPaths.Rust.Item
import FieldPaths.Rust.TypeReader

/-!
# Reading items

Readers of items. Types with fields are read in full; of any other item nothing is looked at but
its kind, its name and where it ends.
-/

namespace FieldPaths.Rust.Reader

/-- Reads `item` over and over, as long as `goesOn` holds of what is left. Every time has to take
a tree, so there are no more times than trees. -/
def many {α : Type} (goesOn : List Tree → Bool) (item : Reader α) : Reader (List α) := do
  loop (← left).length
where
  /-- At most the given number of times. -/
  loop : Nat → Reader (List α)
    | 0 => return []
    | times + 1 => do
      if goesOn (← left) then
        let value ← item
        return value :: (← loop times)
      else return []

/-- Reads items with commas between them up to where `stop` says so, and says whether a comma comes
last. -/
def commaSeparated {α : Type} (stop : Reader Bool) (item : Reader α) :
    Reader (List α × Bool) := do
  loop ((← left).length + 1)
where
  /-- At most the given number of items. -/
  loop : Nat → Reader (List α × Bool)
    | 0 => return ([], false)
    | times + 1 => do
      if ← stop then return ([], false)
      else
        let value ← item
        if ← stop then return ([value], false)
        else
          let _ ← mark ","
          let (more, hasTrailingComma) ← loop times
          return (value :: more, hasTrailingComma || more.isEmpty)

/-! ## Attributes and visibility -/

/-- Reads a path of names alone. -/
def plainPath : Reader (Bool × List String) := do
  let root ← mark? "::"
  let trees ← left
  if !startsPathWord trees then
    let _ ← name
  let first ← someWord
  let more ← many (marks "::") do
    let _ ← mark "::"
    if startsPathWord (← left) then someWord else missing ["path segment after `::`"]
  return (!root.isEmpty, first :: more)

/-- Reads what is inside the brackets of an attribute. -/
def attrContent : Reader Attr := do
  let (isFromRoot, path) ←
    if words "unsafe" (← left) then do pure (false, [← someWord]) else plainPath
  let rest ← match ← left with
    | .group _ _ :: _ => take 1
    | trees =>
      if marks "=" trees then
        let sign ← mark "="
        let trees ← left
        if marks "#" trees && groups .bracket (trees.drop 1) then throw .nestedAttribute
        else if literals trees && trees.length = literalSize trees then
          pure (sign ++ (← literal))
        else pure (sign ++ (← expression))
      else pure []
  return ⟨isFromRoot, path, rest⟩

/-- Reads the attributes before something. -/
def attrs : Reader (List Attr) :=
  many (marks "#") do
    let _ ← mark "#"
    group .bracket attrContent

/-- Reads what limits a visibility, in a group after its word that belongs to it only then. -/
def restriction : Reader (List Tree) := do
  match ← left with
  | .group .paren content :: _ =>
    match Tree.seenAll content with
    | [.ident place] =>
      if ["crate", "self", "super"].contains place then
        let _ ← take 1
        return [.parens [.ident place]]
      else return []
    | .ident "in" :: _ =>
      let content ← group .paren do
        let inWord ← take 1
        let (isFromRoot, path) ← plainPath
        return inWord ++ (if isFromRoot then Tree.op "::" else []) ++
          joined (path.map fun name => [.ident name]) none
      return [.parens content]
    | _ => return []
  | _ => return []

/-- Reads a visibility, which may be nothing, or an invisible group with nothing in it. -/
def visibility : Reader (List Tree) := do
  match (← get).trees with
  | .group .invisible [] :: more =>
    modify fun input => { input with trees := more }
    return []
  | _ =>
    if words "pub" (← left) then
      let word ← take 1
      return word ++ (← restriction)
    else return []

/-! ## Generic parameters -/

/-- Whether a list of parameters ends. -/
def endsAngle : Reader Bool := return marks ">" (← left)

/-- Whether the bounds of a parameter end. -/
def endsBounds (trees : List Tree) : Bool := marks "," trees || marks ">" trees || marks "=" trees

/-- Whether the conditions on parameters end, or the bounds in one of them. -/
def endsCondition (trees : List Tree) : Bool :=
  trees.isEmpty || groups .brace trees || marks "," trees || marks ";" trees ||
    (marks ":" trees && !marks "::" trees) || marks "=" trees

/-- Reads the bounds after a colon, if there is one. -/
def optionalBounds : Reader (List Tree) := do
  let colon ← mark? ":"
  if colon.isEmpty then return [] else boundsUntil endsBounds (← steps)

/-- Reads a constant that stands for a parameter. -/
def constant : Reader (List Tree) := do
  let trees ← left
  if literals trees then literal
  else if names trees then take 1
  else if groups .brace trees then return Tree.regroupAll 0 (← take 1)
  else missing []

/-- Reads a generic parameter. -/
def param : Reader Param := do
  let attrs ← attrs
  let trees ← left
  if lifetimes trees then
    let name ← lifetime
    return ⟨.lifetime, attrs, name, ← optionalBounds, []⟩
  else if names trees || words "_" trees then
    let name ← someWord
    let bounds ← optionalBounds
    let sign ← mark? "="
    return ⟨.type, attrs, name, bounds, ← if sign.isEmpty then pure [] else Ty.tokens <$> anyType⟩
  else if words "const" trees then
    let _ ← take 1
    let name ← name
    let _ ← mark ":"
    let type ← anyType
    let sign ← mark? "="
    return ⟨.const, attrs, name, type.tokens, ← if sign.isEmpty then pure [] else constant⟩
  else missing ["lifetime", "identifier", "`const`"]

/-- Reads generic parameters, if there are any. -/
def params : Reader (List Param × Bool) := do
  if marks "<" (← left) then
    let _ ← mark "<"
    let params ← commaSeparated endsAngle param
    let _ ← mark ">"
    return params
  else return ([], false)

/-- Reads a condition on parameters. -/
def condition : Reader (List Tree) := do
  let trees ← left
  let bounded ←
    if lifetimes trees && marks ":" (trees.drop 2) then Tree.lifetime <$> lifetime
    else do
      let lifetimes ← if words "for" trees then boundLifetimes (← steps) else pure []
      pure (lifetimes ++ (← anyType).tokens)
  let colon ← mark ":"
  return bounded ++ colon ++ (← boundsUntil endsCondition (← steps))

/-- Reads conditions on parameters after their word. -/
def conditions : Reader (List Tree) := do
  loop ((← left).length + 1)
where
  /-- At most the given number of conditions. -/
  loop : Nat → Reader (List Tree)
    | 0 => return []
    | times + 1 => do
      if endsCondition (← left) then return []
      else
        let first ← condition
        let comma ← mark? ","
        if comma.isEmpty then return first else return first ++ comma ++ (← loop times)

/-- Reads the conditions on parameters with their word, if it is next. -/
def whereConditions : Reader (List Tree) := do
  let word ← word? "where"
  if word.isEmpty then return [] else conditions

/-! ## Structs -/

/-- Reads a named field. A field without a name may have a struct or a union for its type. -/
def fieldItem : Reader FieldItem := do
  let attrs ← attrs
  let visibility ← visibility
  let isNameless := words "_" (← left)
  let name ← if isNameless then someWord else name
  let _ ← mark ":"
  let trees ← left
  if isNameless && (words "struct" trees || words "union" trees) && groups .brace (trees.drop 1) then
    return ⟨attrs, visibility, name, .other (← take 2)⟩
  else return ⟨attrs, visibility, name, ← anyType⟩

/-- Reads a field without a name. -/
def tupleField : Reader (List Tree) := do
  let attrs ← attrs
  let visibility ← visibility
  return Attr.tokensOf attrs ++ visibility ++ (← anyType).tokens

/-- Reads the body of a struct, and the conditions before or after it. -/
def structBody : Reader (Fields × List Tree) := do
  let hasWhere := words "where" (← left)
  let conditions ← whereConditions
  let trees ← left
  if !hasWhere && groups .paren trees then
    let (fields, hasTrailingComma) ← group .paren (commaSeparated isAtEnd tupleField)
    let content := separated (fields.map fun field => (false, field)) hasTrailingComma
    let hasWhere := words "where" (← left)
    let conditions ← whereConditions
    if marks ";" (← left) then
      let _ ← mark ";"
      return (.tuple content, conditions)
    else missing (if hasWhere then ["`;`"] else ["`where`", "`;`"])
  else if groups .brace trees then
    let (fields, hasTrailingComma) ← group .brace (commaSeparated isAtEnd fieldItem)
    return (.named fields hasTrailingComma, conditions)
  else if marks ";" trees then
    let _ ← mark ";"
    return (.unit, conditions)
  else if hasWhere then missing ["curly braces", "`;`"]
  else missing ["`where`", "parentheses", "curly braces", "`;`"]

/-- Reads a struct. -/
def structItem : Reader StructItem := do
  let attrs ← attrs
  let visibility ← visibility
  let _ ← word "struct"
  let name ← name
  let (params, hasTrailingComma) ← params
  let (fields, conditions) ← structBody
  return ⟨attrs, visibility, name, ⟨params, hasTrailingComma, conditions⟩, fields⟩

/-! ## Other items -/

/-- The trees after the modifiers that a function may have. -/
def afterModifiers : List Tree → List Tree
  | .ident "const" :: more | .ident "async" :: more | .ident "unsafe" :: more => afterModifiers more
  | .ident "extern" :: .literal _ :: more => more
  | .ident "extern" :: more => more
  | trees => trees

/-- Whether the trees start with a function. -/
def startsFunctionItem (trees : List Tree) : Bool := words "fn" (afterModifiers trees)

/-- The words that an item may start with. -/
def itemStarts : List String :=
  ["`fn`", "`extern`", "`use`", "`static`", "`const`", "`unsafe`", "`mod`", "`type`", "`struct`",
    "`enum`", "`union`", "`trait`", "`auto`", "`impl`", "`default`", "`macro`"]

/-- Takes what is left of an item whose body is in braces, and says whether it has a body. -/
def skipToBody : Reader Bool := do
  let front := (← left).takeWhile fun tree => !groups .brace [tree] && !marks ";" [tree]
  let _ ← take front.length
  if groups .brace (← left) then
    let _ ← take 1
    return true
  else if marks ";" (← left) then
    let _ ← take 1
    return false
  else missing ["curly braces"]

/-- Takes what is left of an item that ends with a semicolon. -/
def skipToSemicolon : Reader Unit := do
  let front := (← left).takeWhile fun tree => !marks ";" [tree]
  let _ ← take front.length
  let _ ← mark ";"

/-- Reads the use of a macro as an item. -/
def macroItem : Reader Unit := do
  let _ ← plainPath
  let _ ← mark "!"
  if anyWord (← left) then
    let _ ← someWord
  match ← left with
  | .group .brace _ :: _ =>
    let _ ← take 1
  | .group _ _ :: _ =>
    let _ ← take 1
    let _ ← mark ";"
  | _ => missing ["delimiter"]

/-- Reads an alternative of an enumeration. The number that it may be given is not looked at. -/
def alternative : Reader Unit := do
  let _ ← attrs
  let _ ← visibility
  let _ ← name
  let trees ← left
  if groups .paren trees then
    let _ ← group .paren (commaSeparated isAtEnd tupleField)
  else if groups .brace trees then
    let _ ← group .brace (commaSeparated isAtEnd fieldItem)
  if marks "=" (← left) then
    let _ ← mark "="
    let value := (← left).takeWhile fun tree => !marks "," [tree]
    if value.isEmpty then missing ["an expression"]
    let _ ← take value.length

/-- Reads a type with the given word that has its content in braces, after its visibility. -/
def bracedType {α : Type} (word : String) (content : Reader α) : Reader Item := do
  let _ ← Reader.word word
  let name ← name
  let _ ← params
  let _ ← whereConditions
  let _ ← group .brace (commaSeparated isAtEnd content)
  return .otherType name

/-- Reads a trait, after its visibility. -/
def traitItem : Reader Item := do
  let _ ← word? "unsafe"
  let _ ← word? "auto"
  let _ ← word "trait"
  let name ← name
  if ← skipToBody then return .otherType name else return .other

/-- Reads an item. -/
def item : Reader Item := do
  let start ← get
  let _ ← attrs
  let visible ← visibility
  let trees ← left
  let next := trees.drop 1
  if startsFunctionItem trees then
    let _ ← skipToBody
    return .other
  else if words "extern" trees then
    if words "crate" next then skipToSemicolon
    else
      let _ ← skipToBody
    return .other
  else if ["use", "static", "const", "type"].any (words · trees) then
    skipToSemicolon
    return .other
  else if words "unsafe" trees then
    if words "trait" next || (words "auto" next && words "trait" (next.drop 1)) then traitItem
    else if ["impl", "extern", "mod"].any (words · next) then
      let _ ← skipToBody
      return .other
    else
      let _ ← take 1
      missing ["`trait`", "`auto`", "`impl`", "`extern`", "`mod`"]
  else if words "mod" trees then
    let _ ← skipToBody
    return .other
  else if words "struct" trees then
    set start
    return .struct (← structItem)
  else if words "enum" trees then bracedType "enum" alternative
  else if words "union" trees && names next then bracedType "union" fieldItem
  else if words "trait" trees || (words "auto" trees && words "trait" next) then traitItem
  else if words "impl" trees || (words "default" trees && !marks "!" next) then
    let _ ← skipToBody
    return .other
  else if words "macro" trees then
    let _ ← skipToBody
    return .other
  else if visible.isEmpty && (names trees || ["self", "super", "crate"].any (words · trees) ||
      marks "::" trees) then
    macroItem
    return .other
  else missing (itemStarts ++
    if visible.isEmpty then ["identifier", "`self`", "`super`", "`crate`", "`::`"] else [])

end FieldPaths.Rust.Reader

namespace FieldPaths.Rust

/-- The struct that some trees write. -/
def StructItem.ofTrees (trees : List Tree) : Except Fault StructItem :=
  Reader.readAll Reader.structItem trees

/-- The item that some trees write. -/
def Item.ofTrees (trees : List Tree) : Except Fault Item := Reader.readAll Reader.item trees

end FieldPaths.Rust
