/-!
# Characters as ranges

The tables of Unicode properties in this library are ascending lists of ranges of code points, both
ends included. They follow version 15 of the standard.
-/

namespace FieldPaths

/-- A set of characters as ranges of code points. -/
abbrev CharRanges := Array (Nat × Nat)

/-- Whether a character lies in one of the ranges. -/
def CharRanges.has (ranges : CharRanges) (c : Char) : Bool :=
  ranges.any fun range => range.1 ≤ c.toNat && c.toNat ≤ range.2

end FieldPaths
