import FieldPaths.Rust.Name
import FieldPaths.Rust.Tree

/-!
# Reading trees

Readers of token trees, from which the readers of types and items are made. A reader takes trees
from the front of what is left, or fails with a fault. Invisible groups are looked through, but
where a type or a visibility may stand: there a group can be one as a whole, and is found as it is.

What is left of a group when its reader is done is not a fault at once: it is one when all else
has been read without a fault.
-/

namespace FieldPaths.Rust

/-- Why trees cannot be read. -/
inductive Fault where
  /-- None of these is next. A reader that only looks for a punctuation mark does not say whether
  anything is next. Where there is too much that could be next, nothing is named. -/
  | expected (wanted : List String) (isAtEnd : Bool)
  /-- A keyword is where a name should be. -/
  | keyword (name : String)
  /-- Something is left over. -/
  | unexpected
  /-- Only lifetimes are where a trait is needed. -/
  | noTrait (isObject : Bool)
  /-- An attribute has another one for its value. -/
  | nestedAttribute
  /-- A literal or something else is where an option should be. -/
  | noOption (isLiteral : Bool)
  /-- An option that there is not. -/
  | unknownOption
deriving Repr, DecidableEq

/-- The wording of a fault. -/
def Fault.message : Fault → String
  | expected [] true => "unexpected end of input"
  | expected [] false | unexpected => "unexpected token"
  | expected wanted isAtEnd =>
    (if isAtEnd then "unexpected end of input, " else "") ++
      match wanted with
      | [one] => "expected " ++ one
      | [one, other] => "expected " ++ one ++ " or " ++ other
      | wanted => "expected one of: " ++ ", ".intercalate wanted
  | keyword name => "expected identifier, found keyword `" ++ name ++ "`"
  | noTrait true => "at least one trait is required for an object type"
  | noTrait false => "at least one trait must be specified"
  | nestedAttribute => "unexpected attribute inside of attribute"
  | noOption true => "unexpected literal in nested attribute, expected ident"
  | noOption false => "unexpected token in nested attribute, expected ident"
  | unknownOption => "unsupported schema option, expected `paths` or `leaf`"

/-- What is left to be read. -/
structure Input where
  trees : List Tree
  /-- Whether something is left of a group that was read. -/
  hasLeftover : Bool := false
deriving Repr

/-- A reader of trees. -/
abbrev Reader := StateT Input (Except Fault)

/-- Whether a word can be a name: it is no keyword, and without the mark of the raw form there is
something left that Rust does not keep for itself. -/
def isName (word : String) : Bool :=
  word = "gen" ||
    !((unraw word).isEmpty || keywords.contains word || reservedNames.contains (unraw word))

namespace Reader

/-! ## Looking at what is left -/

/-- Whether the trees start with the characters of a mark, which belong together. -/
def startsMark : List Char → List Tree → Bool
  | [], _ => true
  | c :: cs, .punct char isJoint :: more =>
    c == char && (cs.isEmpty || (isJoint && startsMark cs more))
  | _, _ => false

/-- Whether the trees start with a mark. -/
def marks (mark : String) (trees : List Tree) : Bool := startsMark mark.toList trees

/-- Whether the trees start with a word. -/
def words (word : String) : List Tree → Bool
  | .ident name :: _ => name == word
  | _ => false

/-- Whether the trees start with a name. -/
def names : List Tree → Bool
  | .ident name :: _ => isName name
  | _ => false

/-- Whether the trees start with a word of any kind. -/
def anyWord : List Tree → Bool
  | .ident _ :: _ => true
  | _ => false

/-- Whether the trees start with a lifetime. -/
def lifetimes : List Tree → Bool
  | .punct '\'' true :: .ident _ :: _ => true
  | _ => false

/-- Whether the trees start with a group. -/
def groups (delimiter : Delimiter) : List Tree → Bool
  | .group d _ :: _ => d == delimiter
  | _ => false

/-- Whether the trees start with a literal, which may have a sign. -/
def literals : List Tree → Bool
  | .literal _ :: _ => true
  | .punct '-' _ :: .literal text :: _ => (text.toList.head?.map (·.isDigit)).getD false
  | .ident "true" :: _ | .ident "false" :: _ => true
  | _ => false

/-- The trees that are seen in what is left. -/
def left : Reader (List Tree) := return Tree.seenAll (← get).trees

/-- Whether nothing is left, not even an invisible group without anything in it. -/
def isAtEnd : Reader Bool := return (← get).trees.isEmpty

/-- Whether an invisible group is next. -/
def isGrouped : Reader Bool := return groups .invisible (← get).trees

/-- Fails because none of these is next. -/
def missing {α : Type} (wanted : List String) : Reader α := do
  throw (.expected wanted (← isAtEnd))

/-! ## Taking from what is left -/

/-- Takes the given number of the trees that are seen. -/
def take (count : Nat) : Reader (List Tree) := do
  let input ← get
  set { input with trees := Tree.dropAllSeen count input.trees }
  return (Tree.seenAll input.trees).take count

/-- Takes all that is left as it is. -/
def takeAll : Reader (List Tree) := do
  let input ← get
  set { input with trees := [] }
  return input.trees

/-- Takes a mark. -/
def mark (text : String) : Reader (List Tree) := do
  if marks text (← left) then
    let _ ← take text.length
    return Tree.op text
  else throw (.expected ["`" ++ text ++ "`"] false)

/-- Takes a mark if it is next. -/
def mark? (text : String) : Reader (List Tree) := do
  if marks text (← left) then mark text else return []

/-- Takes a word. -/
def word (text : String) : Reader (List Tree) := do
  if words text (← left) then take 1 else missing ["`" ++ text ++ "`"]

/-- Takes a word if it is next. -/
def word? (text : String) : Reader (List Tree) := do
  if words text (← left) then take 1 else return []

/-- Takes a name. -/
def name : Reader String := do
  match ← left with
  | .ident text :: _ =>
    if isName text then
      let _ ← take 1
      return text
    else throw (.keyword text)
  | _ => missing ["identifier"]

/-- Takes a word of any kind. -/
def someWord : Reader String := do
  match ← left with
  | .ident text :: _ =>
    let _ ← take 1
    return text
  | _ => missing ["ident"]

/-- Takes a lifetime, and gives its name. -/
def lifetime : Reader String := do
  match ← left with
  | .punct '\'' true :: .ident text :: _ =>
    let _ ← take 2
    return text
  | _ => missing ["lifetime"]

/-- Reads the given trees, and goes on with what is `behind` them. -/
def inside {α : Type} (trees behind : List Tree) (content : Reader α) : Reader α := do
  modify fun input => { input with trees := trees }
  let value ← content
  modify fun inner => ⟨behind, inner.hasLeftover || !(Tree.seenAll inner.trees).isEmpty⟩
  return value

/-- Reads what is in a group that is seen. -/
def group {α : Type} (delimiter : Delimiter) (content : Reader α) : Reader α := do
  let input ← get
  match Tree.seenAll input.trees with
  | .group d trees :: _ =>
    if d = delimiter then inside trees (Tree.dropAllSeen 1 input.trees) content
    else missing [delimiter.describe]
  | _ => missing [delimiter.describe]

/-- Reads what is in an invisible group. -/
def invisible {α : Type} (content : Reader α) : Reader α := do
  match (← get).trees with
  | .group .invisible trees :: behind => inside trees behind content
  | _ => missing [Delimiter.invisible.describe]

/-- Reads all of some trees. -/
def readAll {α : Type} (reader : Reader α) (trees : List Tree) : Except Fault α :=
  match reader.run ⟨trees, false⟩ with
  | .error fault => .error fault
  | .ok (value, input) =>
    if input.hasLeftover || !(Tree.seenAll input.trees).isEmpty then .error .unexpected
    else .ok value

end Reader

end FieldPaths.Rust
