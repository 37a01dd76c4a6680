import FieldPaths.Rust.Reader
import FieldPaths.Rust.Type

/-!
# Reading types

Readers of types and of what types are made of. A type that is no path and no wrapper is read to
its end and kept as the tokens that write it.

Every reader has a number of steps to go and gives it to the readers it uses less one. A reader that
takes nothing uses another one that does soon, so a multiple of the number of trees is enough.
-/

namespace FieldPaths.Rust.Reader

/-! ## What is looked for -/

/-- The words besides names that a path may start with. -/
def pathWords : List String := ["super", "self", "Self", "crate"]

/-- Whether the trees start with a word that a path may start with. -/
def startsPathWord (trees : List Tree) : Bool :=
  names trees || pathWords.any (words · trees)

/-- Whether the trees start with the type of a function. -/
def startsFunction (trees : List Tree) : Bool :=
  words "fn" trees || words "unsafe" trees || words "extern" trees

/-- Whether the trees start with a further bound. -/
def startsBound (trees : List Tree) : Bool :=
  anyWord trees || marks "::" trees || marks "?" trees || lifetimes trees || groups .paren trees

/-- Whether the arguments of a segment come next. -/
def startsArguments (trees : List Tree) : Bool :=
  (marks "<" trees && !marks "<=" trees && !marks "<<=" trees) ||
    (marks "::" trees && marks "<" (trees.drop 2))

/-- Whether a further segment of a path comes next. -/
def startsSegment (trees : List Tree) : Bool :=
  marks "::" trees && !groups .paren (trees.drop 2)

/-- What a type may start with. -/
def typeStarts : List String :=
  ["`for`", "parentheses", "`fn`", "`unsafe`", "`extern`", "identifier", "`::`", "`<`", "`dyn`",
    "square brackets", "`*`", "`&`", "`!`", "`impl`", "`_`", "lifetime"]

/-- What may come after the lifetimes of a type. -/
def boundTypeStarts : List String :=
  ["identifier", "`fn`", "`unsafe`", "`extern`", "`super`", "`self`", "`Self`", "`crate`"]

/-- Whether the arguments of the last segment come next, where a path is in an invisible group. -/
def startsGroupArguments (trees : List Tree) : Bool :=
  marks "<" trees || (marks "::" trees && marks "<" (trees.drop 2))

/-- Whether a path goes on with a further segment behind an invisible group. -/
def continuesGroup (trees : List Tree) : Bool := marks "::" trees && anyWord (trees.drop 2)

/-- A path with further segments. -/
def extended (lead : PathLead) (qualifier : List Segment) (last : Segment) (more : List Segment) :
    Ty :=
  match more.getLast? with
  | some newLast => .path lead (qualifier ++ last :: more.dropLast) newLast
  | none => .path lead qualifier last

/-- Whether a path is made of names alone, each without arguments. -/
def isPlainPath (lead : PathLead) (segments : List Segment) : Bool :=
  (match lead with
    | .member .. => false
    | _ => true) &&
  segments.all fun segment =>
    match segment.args with
    | .none => true
    | _ => false

/-- The number of trees of the literal at the front. -/
def literalSize : List Tree → Nat
  | .punct '-' _ :: _ => 2
  | _ => 1

/-- A literal, which may have a sign. -/
def literal : Reader (List Tree) := do
  match ← left with
  | .punct '-' _ :: _ => return Tree.op "-" ++ (← take 2).drop 1
  | _ => take 1

/-- An expression, of which only the end is looked for. -/
def expression : Reader (List Tree) := do
  if ← isAtEnd then missing ["an expression"]
  return Tree.regroupAll 0 (← takeAll)

/-! ## Types -/

mutual

/-- Reads a type. A list of bounds without a word before it is one only where `hasPlus` allows
it. -/
def type (hasPlus : Bool) : Nat → Reader Ty
  | 0 => throw .unexpected
  | steps + 1 => do
    if ← isGrouped then grouped steps else ungrouped hasPlus steps

/-- Reads a type that is in no invisible group. -/
def ungrouped (hasPlus : Bool) : Nat → Reader Ty
  | 0 => throw .unexpected
  | steps + 1 => do
    let trees ← left
    if words "for" trees then
      let lifetimes ← boundLifetimes steps
      let trees ← left
      if startsFunction trees then return .other (lifetimes ++ (← function steps))
      else if startsPathWord trees then
        let path ← path steps
        return .other (lifetimes ++ path.tokens ++ (← moreBounds hasPlus steps))
      else missing boundTypeStarts
    else if groups .paren trees then parenthesized hasPlus steps
    else if startsFunction trees then return .other (← function steps)
    else if startsPathWord trees || marks "::" trees || marks "<" trees then
      let path ← path steps
      let trees ← left
      match path with
      | .path (.member ..) _ _ => return path
      | .path lead qualifier last =>
        if marks "!" trees && !marks "!=" trees && isPlainPath lead (qualifier ++ [last]) then
          let bang ← mark "!"
          match ← left with
          | .group _ _ :: _ => return .other (path.tokens ++ bang ++ (← take 1))
          | _ => missing ["delimiter"]
        else if hasPlus && marks "+" trees then
          return .other (path.tokens ++ (← moreBounds true steps))
        else return path
      | _ => return path
    else if words "dyn" trees then
      let word ← word "dyn"
      let star ← mark? "*"
      let (hasTrait, tokens) ← bounds hasPlus steps
      if hasTrait then return .other (word ++ star ++ tokens) else throw (.noTrait true)
    else if groups .bracket trees then
      group .bracket do
        let elem ← type true steps
        if marks ";" (← left) then
          let _ ← mark ";"
          return .array elem (← expression)
        else return .slice elem
    else if marks "*" trees then
      let star ← mark "*"
      let trees ← left
      if words "const" trees || words "mut" trees then
        let word ← take 1
        return .other (star ++ word ++ (← type false steps).tokens)
      else missing ["`const`", "`mut`"]
    else if marks "&" trees then
      let _ ← mark "&"
      let life ← if lifetimes (← left) then Tree.lifetime <$> lifetime else pure []
      let mutable ← word? "mut"
      return .reference (life ++ mutable) (← type false steps)
    else if marks "!" trees then return .other (← mark "!")
    else if words "impl" trees then
      let word ← word "impl"
      let (hasTrait, tokens) ← bounds hasPlus steps
      if hasTrait then return .other (word ++ tokens) else throw (.noTrait false)
    else if words "_" trees then return .other (← take 1)
    else if lifetimes trees then
      let (hasTrait, tokens) ← bounds true steps
      if hasTrait then return .other tokens else throw (.noTrait true)
    else missing typeStarts

/-- Reads a type in an invisible group. What is behind the group belongs to the type where it goes
on with the path in the group. -/
def grouped : Nat → Reader Ty
  | 0 => throw .unexpected
  | steps + 1 => do
    let elem ← invisible (type true steps)
    let trees ← left
    match elem with
    | .path lead qualifier last =>
      if continuesGroup trees then
        return extended lead qualifier last (← furtherSegments steps)
      else
        match last with
        | .mk name .none =>
          if startsGroupArguments trees then
            let args ← angled steps
            return extended lead qualifier (.mk name args) (← furtherSegments steps)
          else return .group elem
        | _ => return .group elem
    | _ =>
      if continuesGroup trees then
        let _ ← mark "::"
        let all ← segments steps
        match all.getLast? with
        | some last => return .path (.member elem false 0) all.dropLast last
        | none => throw .unexpected
      else return .group elem

/-- Reads a type in parentheses, or a tuple. -/
def parenthesized (hasPlus : Bool) : Nat → Reader Ty
  | 0 => throw .unexpected
  | steps + 1 => do
    let (inner, isTrait) ← group .paren do
      if ← isAtEnd then return (Ty.other [.parens []], false)
      else
        let trees ← left
        if lifetimes trees then
          let (hasTrait, tokens) ← bounds true steps
          if hasTrait then return (.paren (.other tokens), false) else throw (.noTrait true)
        else if marks "?" trees then
          let (_, tokens) ← bound steps
          return (.other [.parens tokens], true)
        else
          let first ← type true steps
          if marks "," (← left) then
            return (.other [.parens (first.tokens ++ (← moreTypes steps))], false)
          else
            return (.paren first, hasPlus && match first with
              | .path (.member ..) _ _ => false
              | .path .. => true
              | _ => false)
    if isTrait && marks "+" (← left) then
      return .other (inner.tokens ++ (← moreBounds true steps))
    else return inner

/-- Reads the further types of a tuple or of parameters, each after a comma. -/
def moreTypes : Nat → Reader (List Tree)
  | 0 => throw .unexpected
  | steps + 1 => do
    if ← isAtEnd then return []
    else
      let comma ← mark ","
      if ← isAtEnd then return comma
      else
        let type ← type true steps
        return comma ++ type.tokens ++ (← moreTypes steps)

/-- Reads the type of a function. -/
def function : Nat → Reader (List Tree)
  | 0 => throw .unexpected
  | steps + 1 => do
    let safety ← word? "unsafe"
    let outside ← word? "extern"
    let abi ← match ← left with
      | .literal _ :: _ => if outside.isEmpty then pure [] else take 1
      | _ => pure []
    let word ← word "fn"
    let params ← group .paren (parameters steps)
    return safety ++ outside ++ abi ++ word ++ [.parens params] ++ (← returned steps)

/-- Reads the parameters of the type of a function. -/
def parameters : Nat → Reader (List Tree)
  | 0 => throw .unexpected
  | steps + 1 => do
    if ← isAtEnd then return []
    else
      let trees ← left
      let isNamed := (names trees || words "_" trees || words "self" trees) &&
        marks ":" (trees.drop 1) && !marks "::" (trees.drop 1)
      let name ← if isNamed then do pure ((← take 1) ++ (← mark ":")) else pure []
      if marks "..." (← left) then return name ++ (← mark "...") ++ (← mark? ",")
      else
        let type ← type true steps
        if ← isAtEnd then return name ++ type.tokens
        else
          let comma ← mark ","
          return name ++ type.tokens ++ comma ++ (← parameters steps)

/-- Reads the type that a function gives, if one is said. -/
def returned : Nat → Reader (List Tree)
  | 0 => throw .unexpected
  | steps + 1 => do
    if marks "->" (← left) then
      let arrow ← mark "->"
      return arrow ++ (← type false steps).tokens
    else return []

/-- Reads a path. -/
def path : Nat → Reader Ty
  | 0 => throw .unexpected
  | steps + 1 => do
    if marks "<" (← left) then
      let _ ← mark "<"
      let self ← type true steps
      let (isFromRoot, front) ←
        if words "as" (← left) then do
          let _ ← word "as"
          let root ← mark? "::"
          pure (!root.isEmpty, ← segments steps)
        else pure (false, [])
      let _ ← mark ">"
      let _ ← mark "::"
      let back ← memberSegments steps
      let all := front ++ back
      match all.getLast? with
      | some last => return .path (.member self isFromRoot front.length) all.dropLast last
      | none => throw .unexpected
    else
      let root ← mark? "::"
      let all ← segments steps
      match all.getLast? with
      | some last => return .path (if root.isEmpty then .plain else .fromRoot) all.dropLast last
      | none => throw .unexpected

/-- Reads the segments of a path. -/
def segments : Nat → Reader (List Segment)
  | 0 => throw .unexpected
  | steps + 1 => do
    let first ← segment steps
    if startsSegment (← left) then
      let _ ← mark "::"
      return first :: (← segments steps)
    else return [first]

/-- Reads the further segments of a path, if there are any. -/
def furtherSegments : Nat → Reader (List Segment)
  | 0 => throw .unexpected
  | steps + 1 => do
    if startsSegment (← left) then
      let _ ← mark "::"
      segments steps
    else return []

/-- Reads the segments after the type that a path goes on from. -/
def memberSegments : Nat → Reader (List Segment)
  | 0 => throw .unexpected
  | steps + 1 => do
    let first ← segment steps
    if marks "::" (← left) then
      let _ ← mark "::"
      return first :: (← memberSegments steps)
    else return [first]

/-- Reads a segment of a path. -/
def segment : Nat → Reader Segment
  | 0 => throw .unexpected
  | steps + 1 => do
    let trees ← left
    if ["super", "self", "crate", "try"].any (words · trees) then return .mk (← someWord) .none
    else
      let name ← if words "Self" trees then someWord else name
      if startsArguments (← left) then return .mk name (← angled steps)
      else return .mk name .none

/-- Reads the arguments of a segment in their brackets. -/
def angled : Nat → Reader SegmentArgs
  | 0 => throw .unexpected
  | steps + 1 => do
    let colons ← mark? "::"
    let _ ← mark "<"
    let (args, hasTrailingComma) ← arguments steps
    let _ ← mark ">"
    return .angle (!colons.isEmpty) args hasTrailingComma

/-- Reads arguments up to their closing bracket, and says whether a comma comes last. -/
def arguments : Nat → Reader (List Arg × Bool)
  | 0 => throw .unexpected
  | steps + 1 => do
    if marks ">" (← left) then return ([], false)
    else
      let arg ← argument steps
      if marks ">" (← left) then return ([arg], false)
      else
        let _ ← mark ","
        let (more, hasTrailingComma) ← arguments steps
        return (arg :: more, hasTrailingComma || more.isEmpty)

/-- Reads an argument. -/
def argument : Nat → Reader Arg
  | 0 => throw .unexpected
  | steps + 1 => do
    let trees ← left
    if lifetimes trees && !marks "+" (trees.drop 2) then return .lifetime (← lifetime)
    else if literals trees then return .other (← literal)
    else if groups .brace trees then return .other (Tree.regroupAll 0 (← take 1))
    else
      let type ← type true steps
      match type with
      | .path .plain [] last =>
        let trees ← left
        if marks "=" trees then
          let sign ← mark "="
          let trees ← left
          let value ←
            if literals trees then literal
            else if groups .brace trees then Tree.regroupAll 0 <$> take 1
            else Ty.tokens <$> Reader.type true steps
          return .other (last.tokens ++ sign ++ value)
        else if marks ":" trees then
          let sign ← mark ":"
          let bounds ← boundsUntil (fun trees => marks "," trees || marks ">" trees) steps
          return .other (last.tokens ++ sign ++ bounds)
        else return .type type
      | _ => return .type type

/-- Reads lifetimes that a type or a bound is about, with the word before them. -/
def boundLifetimes : Nat → Reader (List Tree)
  | 0 => throw .unexpected
  | steps + 1 => do
    let word ← word "for"
    let opening ← mark "<"
    let params ← lifetimeParams steps
    return word ++ opening ++ params ++ (← mark ">")

/-- Reads the declarations of lifetimes up to the closing bracket. -/
def lifetimeParams : Nat → Reader (List Tree)
  | 0 => throw .unexpected
  | steps + 1 => do
    if marks ">" (← left) then return []
    else
      let name ← lifetime
      let colon ← mark? ":"
      let bounds ←
        if colon.isEmpty then pure []
        else boundsUntil (fun trees => marks "," trees || marks ">" trees) steps
      let param := Tree.lifetime name ++ (if bounds.isEmpty then [] else colon) ++ bounds
      if marks ">" (← left) then return param
      else
        let comma ← mark ","
        return param ++ comma ++ (← lifetimeParams steps)

/-- Reads a bound, and says whether it is a trait. -/
def bound : Nat → Reader (Bool × List Tree)
  | 0 => throw .unexpected
  | steps + 1 => do
    let trees ← left
    if lifetimes trees then return (false, Tree.lifetime (← lifetime))
    else if groups .paren trees then
      return (true, [.parens (← group .paren (traitBound steps))])
    else return (true, ← traitBound steps)

/-- Reads a trait as a bound, with the parameters of a function. -/
def traitBound : Nat → Reader (List Tree)
  | 0 => throw .unexpected
  | steps + 1 => do
    let lifetimes ← if words "for" (← left) then boundLifetimes steps else pure []
    let maybe ← mark? "?"
    let moreLifetimes ←
      if lifetimes.isEmpty && words "for" (← left) then boundLifetimes steps else pure []
    let root ← mark? "::"
    let all ← segments steps
    let front := lifetimes ++ maybe ++ moreLifetimes ++ root ++ joined (all.map (·.tokens)) none
    let trees ← left
    let isBare := match all.getLast?.map (·.args) with
      | some .none => true
      | _ => false
    if isBare && (groups .paren trees || (marks "::" trees && groups .paren (trees.drop 2))) then
      let _ ← mark? "::"
      let params ← group .paren do
        if ← isAtEnd then return []
        else
          let first ← type true steps
          return first.tokens ++ (← moreTypes steps)
      return front ++ [.parens params] ++ (← returned steps)
    else return front

/-- Reads bounds with a plus between them, and says whether there is a trait among them. -/
def bounds (hasPlus : Bool) : Nat → Reader (Bool × List Tree)
  | 0 => throw .unexpected
  | steps + 1 => do
    let (isTrait, tokens) ← bound steps
    if hasPlus && marks "+" (← left) then
      let plus ← mark "+"
      if startsBound (← left) then
        let (hasTrait, more) ← bounds hasPlus steps
        return (isTrait || hasTrait, tokens ++ plus ++ more)
      else return (isTrait, tokens ++ plus)
    else return (isTrait, tokens)

/-- Reads the bounds after the first one, each after a plus. -/
def moreBounds (hasPlus : Bool) : Nat → Reader (List Tree)
  | 0 => throw .unexpected
  | steps + 1 => do
    if hasPlus && marks "+" (← left) then
      let plus ← mark "+"
      if startsBound (← left) then
        let (_, tokens) ← bound steps
        return plus ++ tokens ++ (← moreBounds hasPlus steps)
      else return plus
    else return []

/-- Reads bounds up to where `stop` says that they end. -/
def boundsUntil (stop : List Tree → Bool) : Nat → Reader (List Tree)
  | 0 => throw .unexpected
  | steps + 1 => do
    if stop (← left) then return []
    else
      let (_, tokens) ← bound steps
      if marks "+" (← left) then
        let plus ← mark "+"
        return tokens ++ plus ++ (← boundsUntil stop steps)
      else return tokens

end

/-- The steps that reading may take. -/
def steps : Reader Nat := return 8 * (Tree.sizeOf (← get).trees + 2)

/-- Reads a type with as many steps as it needs. -/
def anyType : Reader Ty := do type true (← steps)

end FieldPaths.Rust.Reader

namespace FieldPaths.Rust

/-- The type that some trees write. -/
def Ty.ofTrees (trees : List Tree) : Except Fault Ty := Reader.readAll Reader.anyType trees

end FieldPaths.Rust
