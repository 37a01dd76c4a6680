import FieldPaths.Rust.Quoted
import FieldPaths.Rust.Tree
import FieldPaths.Text.Blank
import FieldPaths.Text.Word

/-!
# Reading token trees

Program text is cut into tokens first, with delimiters as tokens of their own, and the groups are
made afterwards. Comments and white space are left out. A doc comment is the attribute that it
stands for.

A text that cannot be cut, or whose delimiters do not match, has no trees. What is inside
a literal is not looked at further than is needed to find its end.
-/

namespace FieldPaths.Rust

/-- A token or a delimiter. -/
inductive Lexeme where
  | tree (tree : Tree)
  | opening (delimiter : Delimiter)
  | closing (delimiter : Delimiter)
deriving Repr

namespace Lexeme

/-! ## The extent of tokens

Each of these gives the number of characters that belong to a token. -/

/-- Up to the end of a quoted literal, after its opening quote. A backslash takes the next character
with it. -/
def quotedSize (quote : Char) : List Char → Option Nat
  | [] => none
  | '\\' :: _ :: cs => (quotedSize quote cs).map (· + 2)
  | c :: cs => if c = quote then some 1 else (quotedSize quote cs).map (· + 1)

/-- Up to the end of a raw string, after its opening quote. -/
def rawSize (hashes : List Char) : List Char → Option Nat
  | [] => none
  | c :: cs =>
    if c = '\x22' && hashes.isPrefixOf cs then some (hashes.length + 1)
    else (rawSize hashes cs).map (· + 1)

/-- A raw string after its `r`. -/
def rawStringSize (cs : List Char) : Option Nat :=
  let hashes := cs.takeWhile (· == '#')
  match cs.drop hashes.length with
  | '\x22' :: rest => (rawSize hashes rest).map (· + (hashes.length + 1))
  | _ => none

/-- Up to the end of a block comment, with the given number of comments open. -/
def commentSize (depth : Nat) : List Char → Option Nat
  | [] => none
  | '*' :: '/' :: cs => if depth ≤ 1 then some 2 else (commentSize (depth - 1) cs).map (· + 2)
  | '/' :: '*' :: cs => (commentSize (depth + 1) cs).map (· + 2)
  | _ :: cs => (commentSize depth cs).map (· + 1)

/-- The characters of the digits of a number. -/
def isDigit (c : Char) : Bool := c.isDigit || c == '_'

/-- The characters of a word at the front. -/
def wordSize : List Char → Nat
  | [] => 0
  | c :: cs => if isWordStart c || c == '_' then 1 + (cs.takeWhile isWordContinue).length else 0

/-- The fraction of a number. A dot before another dot or a word is none. -/
def fractionSize : List Char → Nat
  | '.' :: cs =>
    match cs with
    | [] => 1
    | c :: _ => if c == '.' || c == '_' || isWordStart c then 0 else 1 + (cs.takeWhile isDigit).length
  | _ => 0

/-- The exponent of a number, which has a digit. -/
def exponentSize : List Char → Nat
  | c :: cs =>
    if c == 'e' || c == 'E' then
      let sign := match cs with
        | '+' :: _ | '-' :: _ => 1
        | _ => 0
      let digits := (cs.drop sign).takeWhile isDigit
      if digits.any Char.isDigit then 1 + sign + digits.length else 0
    else 0
  | [] => 0

/-- A number with its suffix, after its first digit. -/
def numberSize (first : Char) (cs : List Char) : Nat :=
  let isBased := first == '0' && (match cs with
    | c :: _ => c == 'x' || c == 'o' || c == 'b'
    | [] => false)
  if isBased then (cs.takeWhile isWordContinue).length
  else
    let digits := (cs.takeWhile isDigit).length
    let fraction := fractionSize (cs.drop digits)
    let exponent := exponentSize (cs.drop (digits + fraction))
    digits + fraction + exponent + wordSize (cs.drop (digits + fraction + exponent))

/-- The size of a literal that starts with letters, without those, if one does. -/
def prefixedSize (c : Char) (cs : List Char) : Option Nat :=
  match c, cs with
  | 'r', cs => rawStringSize cs
  | 'b', '\x22' :: cs | 'c', '\x22' :: cs => (quotedSize '\x22' cs).map (· + 1)
  | 'b', '\'' :: cs => (quotedSize '\'' cs).map (· + 1)
  | 'b', 'r' :: cs | 'c', 'r' :: cs => (rawStringSize cs).map (· + 1)
  | _, _ => none

/-! ## One token -/

/-- The characters of punctuation. -/
def isPunctuation (c : Char) : Bool := "~!@#$%^&*-=+|;:,<.>/?'".toList.contains c

/-- Whether a punctuation character is next. A slash that starts a comment is none. -/
def startsPunctuation : List Char → Bool
  | '/' :: '/' :: _ | '/' :: '*' :: _ => false
  | c :: _ => isPunctuation c
  | [] => false

/-- The attribute that a doc comment stands for. -/
def docComment (isInner : Bool) (text : List Char) : List Lexeme :=
  let content := [Tree.ident "doc", .punct '=' false, .literal (quoted (String.ofList text))]
  ((if isInner then [Tree.punct '#' false, .punct '!' false] else [Tree.punct '#' false]) ++
    [Tree.group .bracket content]).map tree

/-- A comment to the end of the line, after its two slashes. -/
def lineComment (cs : List Char) : List Lexeme × Nat :=
  let line := cs.takeWhile (· != '\n')
  let text (front : List Char) : List Char :=
    let text := line.drop front.length
    if text.getLast? = some '\r' then text.dropLast else text
  let found := match line with
    | '/' :: '/' :: _ => []
    | '/' :: _ => docComment false (text ['/'])
    | '!' :: _ => docComment true (text ['!'])
    | _ => []
  (found, line.length)

/-- A block comment after its opening. -/
def blockComment (cs : List Char) : Option (List Lexeme × Nat) :=
  (commentSize 1 cs).map fun size =>
    let text := (cs.take (size - 2)).drop 1
    let found := match cs with
      | '*' :: '*' :: _ | '*' :: '/' :: _ => []
      | '*' :: _ => docComment false text
      | '!' :: _ => docComment true text
      | _ => []
    (found, size)

/-- Whether a quote starts a character literal and not a lifetime. -/
def startsCharacter : List Char → Bool
  | '\\' :: _ => true
  | _ :: '\'' :: _ => true
  | _ => false

/-- The delimiter of a character, and whether it opens a group. -/
def delimiter? : Char → Option Lexeme
  | '(' => some (opening .paren)
  | '[' => some (opening .bracket)
  | '\x7b' => some (opening .brace)
  | ')' => some (closing .paren)
  | ']' => some (closing .bracket)
  | '\x7d' => some (closing .brace)
  | _ => none

/-- What the text that starts with `c` starts with, and the number of characters of it after `c`. -/
def next (c : Char) (cs : List Char) : Option (List Lexeme × Nat) :=
  let literal (size : Nat) : List Lexeme × Nat :=
    let size := size + wordSize (cs.drop size)
    ([tree (.literal (String.ofList (c :: cs.take size)))], size)
  if isBlank c || c.toNat == 0x200e || c.toNat == 0x200f then some ([], 0)
  else if let some lexeme := delimiter? c then some ([lexeme], 0)
  else if c == '\x22' then (quotedSize '\x22' cs).map literal
  else if c == '\'' && startsCharacter cs then (quotedSize '\'' cs).map literal
  else if c.isDigit then some (literal (numberSize c cs))
  else if let some size := prefixedSize c cs then some (literal size)
  else if isWordStart c || c == '_' then
    let size := match c, cs with
      | 'r', '#' :: rest => if wordSize rest = 0 then 0 else 1 + wordSize rest
      | _, _ => (cs.takeWhile isWordContinue).length
    some ([tree (.ident (String.ofList (c :: cs.take size)))], size)
  else match c, cs with
    | '/', '/' :: rest =>
      let (found, size) := lineComment rest
      some (found, size + 1)
    | '/', '*' :: rest => (blockComment rest).map fun (found, size) => (found, size + 1)
    | _, _ =>
      if isPunctuation c then some ([tree (.punct c (c == '\'' || startsPunctuation cs))], 0)
      else none

/-- The tokens of a text. -/
def scan : List Char → Option (List Lexeme)
  | [] => some []
  | c :: cs =>
    match next c cs with
    | none => none
    | some (found, size) =>
      have : (cs.drop size).length < (c :: cs).length := by
        rw [List.length_drop, List.length_cons]
        omega
      (scan (cs.drop size)).map (found ++ ·)
  termination_by cs => cs.length

/-! ## Groups -/

/-- The trees of some tokens, when `outer` are the groups around them, each with the trees before
it, and `done` the trees of their own group that come before, both from the back. -/
def nest : List Lexeme → (outer : List (Delimiter × List Tree)) → (done : List Tree) →
    Option (List Tree)
  | [], [], done => some done.reverse
  | [], _ :: _, _ => none
  | tree t :: more, outer, done => nest more outer (t :: done)
  | opening delimiter :: more, outer, done => nest more ((delimiter, done) :: outer) []
  | closing _ :: _, [], _ => none
  | closing delimiter :: more, (opened, before) :: outer, done =>
    if opened = delimiter then nest more outer (.group delimiter done.reverse :: before) else none

end Lexeme

/-- The token trees of a text. -/
def Tree.read? (text : String) : Option (List Tree) :=
  (Lexeme.scan text.toList).bind (Lexeme.nest · [] [])

end FieldPaths.Rust
