/-!
# Templates

A template is a text with placeholders `{}`. It is filled by putting one detail in the place of each
of them. The template is read once, from left to right, and what is put in is not read again: a
detail may have braces of its own, even a placeholder, and keeps them.
-/

namespace FieldPaths

namespace Template

/-- What stands in a template where the detail belongs. -/
def placeholder : String := "\x7b\x7d"

/-- The characters of a template, with the detail in the place of each placeholder. -/
def fillChars (detail : List Char) : List Char → List Char
  | '\x7b' :: '\x7d' :: more => detail ++ fillChars detail more
  | c :: more => c :: fillChars detail more
  | [] => []

/-- The template with the detail in the place of each placeholder. -/
def fill (template detail : String) : String :=
  String.ofList (fillChars detail.toList template.toList)

end Template

end FieldPaths
