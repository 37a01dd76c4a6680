/-!
# The tokens of a schema text

A schema text is keywords, names, punctuation, blanks and comments. Every other character is
unrecognized; a run of unrecognized characters with nothing between them is one token, so that it
is reported once.

## How the text is cut

Names are taken as long as they go, and a keyword is a name that is spelled like one: `classy` is
a name. Blanks are space, tab, line feed, form feed and carriage return only. A comment
starts with `//` and ends before the next line feed; a `/` that starts no comment is unrecognized.

What is found is a name, a punctuation mark or a single unrecognized character. Tokens are made of
that from the front, with the last run of unrecognized characters kept back: it may become longer,
and it is a token once something else is found or nothing is left.

A token keeps its text and the byte it starts at, from which its end follows. Tokens come in the
order of the text and never overlap, because each cut goes on where the last one ended.
-/

namespace FieldPaths

/-- The kinds of tokens. -/
inductive TokenKind where
  | kwClass
  | kwInterface
  | kwFn
  | kwFinal
  | kwStatic
  | at
  | lBrace
  | rBrace
  | lParen
  | rParen
  | lAngle
  | rAngle
  | lBracket
  | rBracket
  | comma
  | colon
  | semicolon
  | dot
  | ident
  /-- A run of unrecognized characters. -/
  | garbage
deriving Repr, DecidableEq

namespace TokenKind

/-- How a kind is spoken of in a message. -/
def describe : TokenKind → String
  | kwClass => "`class`"
  | kwInterface => "`interface`"
  | kwFn => "`fn`"
  | kwFinal => "`final`"
  | kwStatic => "`static`"
  | .at => "`@`"
  | lBrace => "`\x7b`"
  | rBrace => "`\x7d`"
  | lParen => "`(`"
  | rParen => "`)`"
  | lAngle => "`<`"
  | rAngle => "`>`"
  | lBracket => "`[`"
  | rBracket => "`]`"
  | comma => "`,`"
  | colon => "`:`"
  | semicolon => "`;`"
  | dot => "`.`"
  | ident => "identifier"
  | garbage => "unrecognized input"

/-- Whether the token is a modifier of a member. -/
def isModifier : TokenKind → Bool
  | kwFinal | kwStatic => true
  | _ => false

/-- The kind of a name: a keyword if it is spelled like one. -/
def ofName (name : List Char) : TokenKind :=
  if name = "class".toList then kwClass
  else if name = "interface".toList then kwInterface
  else if name = "fn".toList then kwFn
  else if name = "final".toList then kwFinal
  else if name = "static".toList then kwStatic
  else ident

/-- The kind of a character that is a token by itself. -/
def ofPunctuation? : Char → Option TokenKind
  | '@' => some .at
  | '\x7b' => some lBrace
  | '\x7d' => some rBrace
  | '(' => some lParen
  | ')' => some rParen
  | '<' => some lAngle
  | '>' => some rAngle
  | '[' => some lBracket
  | ']' => some rBracket
  | ',' => some comma
  | ':' => some colon
  | ';' => some semicolon
  | '.' => some dot
  | _ => none

end TokenKind

/-- A token and its place in the text. -/
structure Token where
  kind : TokenKind
  /-- The byte the token starts at. -/
  start : Nat
  text : String
deriving Repr, DecidableEq

/-- The first byte after the token. -/
def Token.stop (token : Token) : Nat := token.start + token.text.utf8ByteSize

namespace Token

/-! ## Classes of characters -/

/-- The characters that separate tokens. -/
def isSpace (c : Char) : Bool :=
  c == ' ' || c == '\t' || c == '\r' || c == '\n' || c == '\x0c'

/-- The characters a name may start with. -/
def isNameStart (c : Char) : Bool := c.isAlpha || c == '_' || c == '$'

/-- The characters a name may go on with. -/
def isNameContinue (c : Char) : Bool := c.isAlphanum || c == '_' || c == '$'

/-- Whether a comment starts here. -/
def startsComment : List Char → Bool
  | '/' :: '/' :: _ => true
  | _ => false

/-! ## What is found in the text -/

/-- The number of bytes of some characters. -/
def byteCount (cs : List Char) : Nat := (cs.map Char.utf8Size).foldr (· + ·) 0

theorem drop_length_lt {cs : List Char} {n : Nat} (h : 0 < n) (hc : cs ≠ []) :
    (cs.drop n).length < cs.length := by
  have : 0 < cs.length := List.length_pos_iff.2 hc
  simp
  omega

/-- A range of bytes of a text. -/
structure ByteRange where
  start : Nat
  /-- The first byte after the range. -/
  stop : Nat
deriving Repr, DecidableEq

/-- What is found at a range of bytes: a token of some kind, or a character that starts none. -/
structure Finding where
  kind? : Option TokenKind
  range : ByteRange
deriving Repr, DecidableEq

/-- What is found in the text `cs`, whose first byte is at `offset`. Blanks and comments are passed
over. -/
def findings (offset : Nat) : List Char → List Finding
  | [] => []
  | c :: rest =>
    if isSpace c then findings (offset + c.utf8Size) rest
    else if startsComment (c :: rest) then
      let comment := c :: rest.takeWhile (· != '\n')
      have : ((c :: rest).drop comment.length).length < (c :: rest).length :=
        drop_length_lt (by simp [comment]) (by simp)
      findings (offset + byteCount comment) ((c :: rest).drop comment.length)
    else if isNameStart c then
      let name := c :: rest.takeWhile isNameContinue
      have : ((c :: rest).drop name.length).length < (c :: rest).length :=
        drop_length_lt (by simp [name]) (by simp)
      ⟨some (.ofName name), offset, offset + byteCount name⟩ ::
        findings (offset + byteCount name) ((c :: rest).drop name.length)
    else
      ⟨TokenKind.ofPunctuation? c, offset, offset + c.utf8Size⟩ ::
        findings (offset + c.utf8Size) rest
  termination_by cs => cs.length

/-! ## Runs of unrecognized characters -/

/-- The token of a run that has come to its end, if there is one. -/
def flush (run : Option ByteRange) : List (TokenKind × ByteRange) :=
  (run.map fun range => (.garbage, range)).toList

/-- The tokens that are left when `pending` is the run of unrecognized characters that was found
last. A character right behind the run makes it longer, and anything else is its end. -/
def coalesce (pending : Option ByteRange) : List Finding → List (TokenKind × ByteRange)
  | [] => flush pending
  | ⟨some kind, range⟩ :: more => flush pending ++ (kind, range) :: coalesce none more
  | ⟨none, range⟩ :: more =>
    match pending.filter fun run => run.stop == range.start with
    | some run => coalesce (some { run with stop := range.stop }) more
    | none => flush pending ++ coalesce (some range) more

/-! ## Tokens with their texts -/

/-- The characters behind the first bytes. -/
def dropBytes : Nat → List Char → List Char
  | _, [] => []
  | count, c :: cs => if count = 0 then c :: cs else dropBytes (count - c.utf8Size) cs

/-- The characters of the first bytes. -/
def takeBytes : Nat → List Char → List Char
  | _, [] => []
  | count, c :: cs => if count = 0 then [] else c :: takeBytes (count - c.utf8Size) cs

/-- The text at a range of bytes. -/
def textAt (text : String) (range : ByteRange) : String :=
  String.ofList (takeBytes (range.stop - range.start) (dropBytes range.start text.toList))

/-- The tokens of a schema text. -/
def scan (text : String) : List Token :=
  (coalesce none (findings 0 text.toList)).map fun (kind, range) =>
    ⟨kind, range.start, textAt text range⟩

end Token

end FieldPaths
