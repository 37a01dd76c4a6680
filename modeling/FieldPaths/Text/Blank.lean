/-!
# Blank text

White space in the sense of the Unicode property `White_Space`, as a finite table, and the two
ways this library cuts it off. A schema whose sources are all blank is refused before it is
compiled, and the rows of a decision table never end in white space.

The table is the whole property: it has not changed since Unicode 6.3, so it is written out here
rather than computed.
-/

namespace FieldPaths

/-- The characters with the Unicode property `White_Space`. -/
def isBlank (c : Char) : Bool :=
  let n := c.toNat
  (0x9 ≤ n && n ≤ 0xd) || n == 0x20 || n == 0x85 || n == 0xa0 || n == 0x1680 ||
    (0x2000 ≤ n && n ≤ 0x200a) || n == 0x2028 || n == 0x2029 || n == 0x202f || n == 0x205f ||
    n == 0x3000

/-- A text is blank when nothing is left of it without its white space. -/
def isBlankText (text : String) : Bool := text.toList.all isBlank

/-- A text without the white space at its front. -/
def trimFront (text : List Char) : List Char := text.dropWhile isBlank

/-- A text without the white space at its back. -/
def trimBack (text : List Char) : List Char := (text.reverse.dropWhile isBlank).reverse

/-- A text without the white space at both ends. -/
def trimBoth (text : List Char) : List Char := trimBack (trimFront text)

end FieldPaths
