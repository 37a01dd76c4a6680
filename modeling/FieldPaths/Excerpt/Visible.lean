import FieldPaths.Text.Width

/-!
# Text made visible

Source text is shown with its controls replaced: a tab by four blanks, the other controls by their
pictures, and the marks of writing direction, which would reorder the row they are in, by
a replacement character. A joiner that would melt two characters into one is left out. Everything
else is shown as it is.
-/

namespace FieldPaths.Excerpt

/-- What is shown for a character. -/
def visibleChar (c : Char) : List Char :=
  if c == '\t' then [' ', ' ', ' ', ' ']
  else if c.toNat == 0x200d then []
  else if c.toNat == 0x7f then [Char.ofNat 0x2421]
  else if isReplacedControl c then
    [if c.toNat < 0x20 then Char.ofNat (0x2400 + c.toNat) else Char.ofNat 0xfffd]
  else [c]

/-- What is shown for a text. -/
def visible (text : List Char) : List Char := text.flatMap visibleChar

end FieldPaths.Excerpt
