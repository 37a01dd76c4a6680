import FieldPaths.Text.Combining
import FieldPaths.Text.Printable

/-!
# Quoted text in generated Rust

A string literal whose text shows every character: quotes and backslashes are escaped, and so are
the characters that cannot be seen where they stand, by a short name where there is one and by
their number otherwise. An apostrophe needs no escape between double quotes.
-/

namespace FieldPaths.Rust

/-- A number in lower-case hexadecimal digits. -/
def hexDigits (n : Nat) : List Char := Nat.toDigits 16 n

/-- A character as it is written between double quotes. -/
def quotedChar (c : Char) : List Char :=
  match c with
  | '\x00' => ['\\', '0']
  | '\t' => ['\\', 't']
  | '\n' => ['\\', 'n']
  | '\r' => ['\\', 'r']
  | '\x22' => ['\\', '\x22']
  | '\\' => ['\\', '\\']
  | c =>
    if isCombining c || !isPrintable c then
      ['\\', 'u', '\x7b'] ++ hexDigits c.toNat ++ ['\x7d']
    else [c]

/-- A text as a string literal. -/
def quoted (text : String) : String :=
  String.ofList ('\x22' :: text.toList.flatMap quotedChar ++ ['\x22'])

end FieldPaths.Rust
