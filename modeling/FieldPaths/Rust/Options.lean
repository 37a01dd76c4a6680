import FieldPaths.Rust.TypeReader

/-!
# The options of a schema attribute

The attribute `schema` on a struct takes options with commas between them: `paths = Name` names the
companion type, and `leaf = path` makes types of a name leaves. Of a path only the last name counts,
and it is kept as it is written. An option may be given again: the last companion name is the one
that is used, and all leaf names are.
-/

namespace FieldPaths.Rust

/-- The options of a schema attribute. -/
structure Options where
  /-- The name of the companion type. -/
  companion : Option String := none
  /-- The names of leaf types. -/
  leaves : List String := []
deriving Repr, DecidableEq

namespace Reader

/-- Reads the name of an option, which may be a path of words of any kind. -/
def optionPath : Reader (Bool × List String) := do
  let root ← mark? "::"
  let trees ← left
  if ← isAtEnd then missing ["nested attribute"]
  else if !anyWord trees then throw (.noOption (literals trees))
  else
    let first ← someWord
    return (!root.isEmpty, first :: (← more (← left).length))
where
  /-- The further words, at most the given number of them. -/
  more : Nat → Reader (List String)
    | 0 => return []
    | times + 1 => do
      if marks "::" (← left) then
        let _ ← mark "::"
        return (← someWord) :: (← more times)
      else return []

/-- Reads an option. -/
def option (options : Options) : Reader Options := do
  let (isFromRoot, path) ← optionPath
  if !isFromRoot && path == ["paths"] then
    let _ ← mark "="
    return { options with companion := some (← name) }
  else if !isFromRoot && path == ["leaf"] then
    let _ ← mark "="
    let _ ← mark? "::"
    let segments ← segments (← steps)
    return { options with leaves := options.leaves ++ (segments.getLast?.map (·.name)).toList }
  else throw .unknownOption

/-- Reads options with commas between them. -/
def options : Reader Options := do
  if ← isAtEnd then return {} else loop {} ((← left).length + 1)
where
  /-- At most the given number of options. -/
  loop (found : Options) : Nat → Reader Options
    | 0 => return found
    | times + 1 => do
      let found ← option found
      if ← isAtEnd then return found
      else
        let _ ← mark ","
        if ← isAtEnd then return found else loop found times

end Reader

/-- The options that some trees write. -/
def Options.ofTrees (trees : List Tree) : Except Fault Options :=
  Reader.readAll Reader.options trees

end FieldPaths.Rust
