/-!
# Token trees

Program text as its tokens, with everything between a pair of delimiters as one tree. Punctuation
is single characters; that two of them belong together is said by the first one.

A text made of trees has a blank between two tokens, except after a character that belongs
together with the next one and inside parentheses and brackets.
-/

namespace FieldPaths.Rust

/-- What a group is enclosed in. -/
inductive Delimiter where
  | paren
  | bracket
  | brace
  /-- Nothing that is written. -/
  | invisible
deriving Repr, DecidableEq

namespace Delimiter

/-- The token that opens a group. -/
def opening : Delimiter → String
  | paren => "("
  | bracket => "["
  | brace => "\x7b"
  | invisible => ""

/-- The token that closes a group. -/
def closing : Delimiter → String
  | paren => ")"
  | bracket => "]"
  | brace => "\x7d"
  | invisible => ""

/-- How a group is spoken of in a message. -/
def describe : Delimiter → String
  | paren => "parentheses"
  | bracket => "square brackets"
  | brace => "curly braces"
  | invisible => "invisible group"

end Delimiter

/-- A token tree. -/
inductive Tree where
  /-- A word. A raw one has its mark. -/
  | ident (name : String)
  /-- A punctuation character. -/
  | punct (char : Char) (isJoint : Bool)
  /-- A literal as it is written. -/
  | literal (text : String)
  | group (delimiter : Delimiter) (content : List Tree)
deriving Repr, BEq

namespace Tree

/-- Whether the tree belongs together with the next one. -/
def isJoint : Tree → Bool
  | punct _ isJoint => isJoint
  | _ => false

mutual

/-- The tokens of a tree, each delimiter and each punctuation character by itself. -/
def words : Tree → List String
  | ident name => [name]
  | punct char _ => [char.toString]
  | literal text => [text]
  | group .invisible content => wordsOf content
  | group delimiter content => delimiter.opening :: wordsOf content ++ [delimiter.closing]

/-- The tokens of some trees. -/
def wordsOf : List Tree → List String
  | [] => []
  | tree :: more => tree.words ++ wordsOf more

end

mutual

/-- The text of a tree. -/
def text : Tree → String
  | ident name => name
  | punct char _ => char.toString
  | literal text => text
  | group .brace [] => "\x7b \x7d"
  | group .brace content => "\x7b " ++ textOf content ++ " \x7d"
  | group delimiter content => delimiter.opening ++ textOf content ++ delimiter.closing

/-- The text of some trees. -/
def textOf : List Tree → String
  | [] => ""
  | tree :: more => tree.text ++ (if more.isEmpty || tree.isJoint then "" else " ") ++ textOf more

end

mutual

/-- The number of tokens of a tree, with a group as one more than what is in it. -/
def size : Tree → Nat
  | group _ content => sizeOf content + 1
  | _ => 1

/-- The number of tokens of some trees. -/
def sizeOf : List Tree → Nat
  | [] => 0
  | tree :: more => tree.size + sizeOf more

end

/-! ## Invisible groups -/

mutual

/-- The trees that are seen where a tree is: what is in an invisible group stands in its place. -/
def seen : Tree → List Tree
  | group .invisible content => seenAll content
  | tree => [tree]

/-- The trees that are seen where some trees are. -/
def seenAll : List Tree → List Tree
  | [] => []
  | tree :: more => tree.seen ++ seenAll more

end

mutual

/-- A tree without the first `count` trees that are seen in it, and opened. -/
def dropSeen (count : Nat) : Tree → List Tree
  | group .invisible content => dropAllSeen count content
  | _ => []

/-- Trees without the first `count` trees that are seen. An invisible group that one of these is in
is opened. -/
def dropAllSeen (count : Nat) : List Tree → List Tree
  | [] => []
  | tree :: more =>
    if count = 0 then tree :: more
    else if tree.seen.length < count then dropAllSeen (count - tree.seen.length) more
    else tree.dropSeen count ++ more

end

/-! ## Operators -/

/-- The operators of more than one character, the longest first. -/
def operators : List (List Char) :=
  ["<<=", ">>=", "...", "..=", "::", "->", "=>", "==", "!=", "<=", ">=", "&&", "||", "<<", ">>", "..",
    "+=", "-=", "*=", "/=", "%=", "^=", "&=", "|="].map String.toList

/-- The punctuation at the front whose characters belong together. -/
def jointChars : List Tree → List Char
  | punct char true :: more => char :: jointChars more
  | punct char false :: _ => [char]
  | _ => []

/-- The number of characters of the operator at the front. -/
def operatorSize (trees : List Tree) : Nat :=
  ((operators.find? (·.isPrefixOf (jointChars trees))).map List.length).getD 1

mutual

/-- A tree in which only the characters of an operator belong together. -/
def regroup : Tree → Tree
  | group delimiter content => group delimiter (regroupAll 0 content)
  | tree => tree

/-- Trees in which only the characters of an operator belong together, when the first `pending` of
them are the rest of one. -/
def regroupAll (pending : Nat) : List Tree → List Tree
  | [] => []
  | punct '\'' isJoint :: more => punct '\'' isJoint :: regroupAll 0 more
  | punct char isJoint :: more =>
    let size := if pending = 0 then operatorSize (punct char isJoint :: more) else pending
    punct char (1 < size) :: regroupAll (size - 1) more
  | tree :: more => tree.regroup :: regroupAll 0 more

end

/-! ## Making trees -/

/-- Punctuation of one or more characters that belong together. -/
def op (text : String) : List Tree :=
  match text.toList.reverse with
  | [] => []
  | last :: front => front.reverse.map (punct · true) ++ [punct last false]

/-- A lifetime. -/
def lifetime (name : String) : List Tree := [punct '\'' true, ident name]

/-- An attribute with the given content. -/
def attr (content : List Tree) : List Tree := [punct '#' false, group .bracket content]

/-- A group in parentheses. -/
def parens (content : List Tree) : Tree := group .paren content

/-- A group in braces. -/
def braces (content : List Tree) : Tree := group .brace content

end Tree

end FieldPaths.Rust
