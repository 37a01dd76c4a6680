import FieldPaths.Proofs.Rust.Quoted

/-!
# Reading JSON

A reader of JSON, made after the grammar of JSON and not after the documents that are written here:
white space may stand between any two tokens, every escape is understood, and there are the values
that no document of ours has. Nothing that is no JSON is let through, such as a comma before a
closing bracket, a control character in a string or half of a surrogate pair.

## Two steps

A text is first cut into tokens and only then read as a value. Where the tokens are known, white
space and escapes are gone, and what is left is how brackets nest. The two steps know nothing of
each other, so what is said about layouts says nothing about nesting, and the other way round.

Both go from front to back and take what they read along, be it the characters of an unfinished
word or the lists and records that are still open. So every step takes something off the front, and
that they come to an end needs no argument.

Numbers are kept as they are written, and the entries of a record in their order.
-/

namespace FieldPaths

/-- A JSON value. -/
inductive Json where
  | null
  | bool (value : Bool)
  | number (numeral : String)
  | string (text : String)
  | array (elements : List Json)
  | object (entries : List (String × Json))

namespace Json

/-! ## Words -/

/-- What follows some digits, of which there has to be one. -/
def afterDigits? (cs : List Char) : Option (List Char) :=
  if (cs.takeWhile Char.isDigit).isEmpty then none else some (cs.dropWhile Char.isDigit)

/-- What follows a whole number, which has no zero in front of other digits. -/
def afterWhole? : List Char → Option (List Char)
  | '0' :: rest => some rest
  | cs => afterDigits? cs

/-- What follows a fraction, if there is one. -/
def afterFraction? : List Char → Option (List Char)
  | '.' :: rest => afterDigits? rest
  | cs => some cs

/-- What follows a sign, if there is one. -/
def afterSign (signs : List Char) : List Char → List Char
  | c :: rest => if c ∈ signs then rest else c :: rest
  | [] => []

/-- What follows an exponent, if there is one. -/
def afterExponent? : List Char → Option (List Char)
  | 'e' :: rest | 'E' :: rest => afterDigits? (afterSign ['+', '-'] rest)
  | cs => some cs

/-- Whether the word is a number. -/
def isNumber (word : List Char) : Bool :=
  (do afterExponent? (← afterFraction? (← afterWhole? (afterSign ['-'] word)))) == some []

/-- The value that a word stands for. -/
def word? (word : List Char) : Option Json :=
  if word = "null".toList then some null
  else if word = "true".toList then some (bool true)
  else if word = "false".toList then some (bool false)
  else if isNumber word then some (number (String.ofList word))
  else none

/-! ## Strings -/

/-- The character that a backslash and one more character stand for. -/
def shortEscape? : Char → Option Char
  | '\x22' => some '\x22'
  | '\\' => some '\\'
  | '/' => some '/'
  | 'b' => some '\x08'
  | 'f' => some '\x0c'
  | 'n' => some '\n'
  | 'r' => some '\r'
  | 't' => some '\t'
  | _ => none

/-- The number that some hexadecimal digits stand for. -/
def hexNumber? (digits : List Char) : Option Nat :=
  digits.foldlM (fun n c ↦ (Rust.hexValue? c).map (16 * n + ·)) 0

/-- The characters that some code points stand for. Surrogates come in pairs only. -/
def characters? : List Nat → Option (List Char)
  | [] => some []
  | n :: more =>
    if 0xd800 ≤ n ∧ n < 0xdc00 then
      match more with
      | m :: more =>
        if 0xdc00 ≤ m ∧ m < 0xe000 then
          (characters? more).map (Char.ofNat (0x10000 + 0x400 * (n - 0xd800) + (m - 0xdc00)) :: ·)
        else none
      | [] => none
    else if 0xdc00 ≤ n ∧ n < 0xe000 then none
    else (characters? more).map (Char.ofNat n :: ·)

/-! ## Tokens -/

/-- The tokens of a JSON text. -/
inductive Token where
  | openBracket
  | closeBracket
  | openBrace
  | closeBrace
  | comma
  | colon
  | string (text : String)
  | word (value : Json)

/-- The characters that are tokens by themselves. -/
def mark? : Char → Option Token
  | '[' => some .openBracket
  | ']' => some .closeBracket
  | '\x7b' => some .openBrace
  | '\x7d' => some .closeBrace
  | ',' => some .comma
  | ':' => some .colon
  | _ => none

/-- The characters that may stand between tokens. -/
def isSpace (c : Char) : Bool := c == ' ' || c == '\t' || c == '\n' || c == '\r'

/-- The characters of numbers and names. -/
def isWordChar (c : Char) : Bool := c.isAlphanum || c == '+' || c == '-' || c == '.'

/-- The token of a word that has ended, if there was one. -/
def ended? (word : List Char) : Option (List Token) :=
  if word.isEmpty then some [] else (word? word).map fun value ↦ [.word value]

mutual

/-- The tokens of a text that follows an unfinished word. -/
def tokens? (word : List Char) : List Char → Option (List Token)
  | [] => ended? word
  | c :: rest =>
    if isWordChar c then tokens? (word ++ [c]) rest
    else do
      let before ← ended? word
      if isSpace c then
        return before ++ (← tokens? [] rest)
      else if c = '\x22' then
        return before ++ (← tokensInString? [] rest)
      else
        let mark ← mark? c
        return before ++ mark :: (← tokens? [] rest)

/-- The tokens of a text that goes on with a string, the code points of the string before it. A
numeric escape may give half of a surrogate pair. -/
def tokensInString? (codePoints : List Nat) : List Char → Option (List Token)
  | [] => none
  | '\x22' :: rest => do
    let text ← characters? codePoints
    return .string (String.ofList text) :: (← tokens? [] rest)
  | '\\' :: 'u' :: a :: b :: c :: d :: rest => do
    let n ← hexNumber? [a, b, c, d]
    tokensInString? (codePoints ++ [n]) rest
  | '\\' :: c :: rest => do
    let c ← shortEscape? c
    tokensInString? (codePoints ++ [c.toNat]) rest
  | c :: rest =>
    if c = '\\' ∨ c.toNat < 0x20 then none else tokensInString? (codePoints ++ [c.toNat]) rest

end

/-! ## Values -/

/-- A list or record that is still open, what it has so far in reverse. -/
inductive Open where
  | array (elements : List Json)
  /-- A record, with the key of the next entry. -/
  | object (entries : List (String × Json)) (key : String)

mutual

/-- The value of some tokens, where a part starts. -/
def value? (stack : List Open) : List Token → Option Json
  | .word value :: rest => valueAfter? stack value rest
  | .string text :: rest => valueAfter? stack (string text) rest
  | .openBracket :: .closeBracket :: rest => valueAfter? stack (array []) rest
  | .openBracket :: rest => value? (.array [] :: stack) rest
  | .openBrace :: .closeBrace :: rest => valueAfter? stack (object []) rest
  | .openBrace :: .string key :: .colon :: rest => value? (.object [] key :: stack) rest
  | _ => none

/-- The value of some tokens after a part that is complete. -/
def valueAfter? (stack : List Open) (value : Json) (tokens : List Token) : Option Json :=
  match stack, tokens with
  | [], [] => some value
  | .array elements :: stack, .comma :: rest => value? (.array (value :: elements) :: stack) rest
  | .array elements :: stack, .closeBracket :: rest =>
    valueAfter? stack (array (value :: elements).reverse) rest
  | .object entries key :: stack, .comma :: .string next :: .colon :: rest =>
    value? (.object ((key, value) :: entries) next :: stack) rest
  | .object entries key :: stack, .closeBrace :: rest =>
    valueAfter? stack (object ((key, value) :: entries).reverse) rest
  | _, _ => none

end

/-- The value that a JSON text stands for. -/
def read? (text : String) : Option Json := (tokens? [] text.toList).bind (value? [])

end Json

end FieldPaths
