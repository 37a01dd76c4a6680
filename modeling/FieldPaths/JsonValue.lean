/-!
# Documents of strings, lists and records

The part of JSON that describes generated members: strings, lists, and records whose entries stay in
order. A document is written on one line, or with every element on a line of its own.
-/

namespace FieldPaths

/-- A document. -/
inductive JsonValue where
  | string (text : String)
  | array (elements : List JsonValue)
  | object (entries : List (String × JsonValue))
deriving Repr

namespace JsonValue

/-- A character as it is written in a JSON string: only quotes, backslashes and ASCII controls are
escaped, controls without a short name by four hexadecimal digits. -/
def quotedChar (c : Char) : List Char :=
  match c with
  | '\x22' => ['\\', '\x22']
  | '\\' => ['\\', '\\']
  | '\x08' => ['\\', 'b']
  | '\t' => ['\\', 't']
  | '\n' => ['\\', 'n']
  | '\x0c' => ['\\', 'f']
  | '\r' => ['\\', 'r']
  | c =>
    if c.toNat < 0x20 then
      ['\\', 'u', '0', '0'] ++ [Nat.digitChar (c.toNat / 16), Nat.digitChar (c.toNat % 16)]
    else [c]

/-- A text as a JSON string. -/
def quoted (text : String) : String :=
  String.ofList ('\x22' :: text.toList.flatMap quotedChar ++ ['\x22'])

/-- What separates the parts of a document: what follows a key, and what stands before the
elements and before the closing bracket at a depth. -/
structure Layout where
  afterKey : String
  beforeElement : Nat → String
  beforeClose : Nat → String

/-- A line break with two blanks for every level. -/
def newline (depth : Nat) : String :=
  String.ofList ('\n' :: List.replicate (2 * depth) ' ')

/-- Everything on one line without blanks. -/
def Layout.compact : Layout := ⟨":", fun _ => "", fun _ => ""⟩

/-- Every element on a line of its own, two blanks deeper than what contains it. -/
def Layout.indented : Layout := ⟨": ", fun depth => newline (depth + 1), newline⟩

mutual

/-- A document at the given depth. A list or record without elements has nothing in between. -/
def write (layout : Layout) (depth : Nat) : JsonValue → String
  | .string text => quoted text
  | .array [] => "[]"
  | .array (element :: more) =>
    "[" ++ layout.beforeElement depth ++ write layout (depth + 1) element ++
      writeElements layout depth more ++ layout.beforeClose depth ++ "]"
  | .object [] => "\x7b\x7d"
  | .object ((key, value) :: more) =>
    "\x7b" ++ layout.beforeElement depth ++ quoted key ++ layout.afterKey ++
      write layout (depth + 1) value ++ writeEntries layout depth more ++
      layout.beforeClose depth ++ "\x7d"

/-- The elements after the first. -/
def writeElements (layout : Layout) (depth : Nat) : List JsonValue → String
  | [] => ""
  | element :: more =>
    "," ++ layout.beforeElement depth ++ write layout (depth + 1) element ++
      writeElements layout depth more

/-- The entries after the first. -/
def writeEntries (layout : Layout) (depth : Nat) : List (String × JsonValue) → String
  | [] => ""
  | (key, value) :: more =>
    "," ++ layout.beforeElement depth ++ quoted key ++ layout.afterKey ++
      write layout (depth + 1) value ++ writeEntries layout depth more

end

end JsonValue

end FieldPaths
