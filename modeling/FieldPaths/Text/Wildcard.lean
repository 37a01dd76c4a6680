/-!
# Wildcard patterns

A pattern is literal text in which every `*` stands for any run of characters, the empty run
included. There is no way to quote a `*`.

A pattern is tried by cutting it at its stars. The first piece has to open the name and the last
has to close what is left; the pieces between are found from left to right, each at its first
occurrence. Taking the first occurrence leaves the longest rest, so it never loses a match, and a
name is tried without going back.
-/

namespace FieldPaths

namespace Wildcard

/-- The literal pieces of a pattern: a pattern with `n` stars has `n + 1` of them. -/
def pieces (pattern : List Char) : List (List Char) := pattern.splitOn '*'

/-- What follows the first occurrence of `piece`. -/
def after? (piece : List Char) : List Char → Option (List Char)
  | [] => if piece.isEmpty then some [] else none
  | c :: text =>
    if piece.isPrefixOf (c :: text) then some ((c :: text).drop piece.length)
    else after? piece text

/-- Whether `rest` is the pieces in their order, the last one at its end, with any run of
characters before each of them. Without a piece there was no star, and nothing may be left. -/
def closes : List (List Char) → List Char → Bool
  | [], rest => rest.isEmpty
  | [last], rest => last.isSuffixOf rest
  | piece :: next :: more, rest =>
    match after? piece rest with
    | none => false
    | some rest => closes (next :: more) rest

/-- Whether the pattern describes the whole of `name`. -/
def accepts (pattern name : String) : Bool :=
  match pieces pattern.toList with
  | [] => name.isEmpty
  | first :: more =>
    first.isPrefixOf name.toList && closes more (name.toList.drop first.length)

end Wildcard

end FieldPaths
