/-!
# Similar words

How much a mistyped word is like a word that was meant: what share of either word the characters are
that the words have in common, close enough to their places, and how many of those come in the same
order. Equal words have the similarity one, words without a common character zero.

The measure is a ratio of small numbers and is taken exactly, so that what is similar enough does
not hang on how a quotient is rounded.
-/

namespace FieldPaths

namespace Similarity

/-- A character of a word with whether it has found its partner in the other word. -/
abbrev Place := Char × Bool

/-- How far from its own position a character may find its partner. -/
def reach (a b : List Char) : Nat := max a.length b.length / 2 - 1

/-- The position of the first free `c` that is at most `reach` away from the position `i`. -/
def partner? (reach : Nat) (c : Char) (i : Nat) (places : List Place) : Option Nat :=
  places.zipIdx.findIdx? fun ((other, taken), j) =>
    i ≤ j + reach && j ≤ i + reach && !taken && other == c

/-- The common characters of two words, in the order of the one and in that of the other. -/
def common (a b : List Char) : List Char × List Char :=
  let (found, places) := a.zipIdx.foldl
    (fun (found, places) (c, i) =>
      match partner? (reach a b) c i places with
      | none => (found, places)
      | some j => (found ++ [c], places.modify j fun (other, _) => (other, true)))
    (([], b.map (·, false)) : List Char × List Place)
  (found, (places.filter (·.2)).map (·.1))

/-- The similarity of two words. A quotient by zero counts as zero. -/
def score (a b : List Char) : Rat :=
  if a.isEmpty && b.isEmpty then 1
  else
    let (inA, inB) := common a b
    let matching : Rat := inA.length
    let swapped := (inA.zip inB).countP (fun (x, y) => x != y) / 2
    (matching / a.length + matching / b.length + (matching - swapped) / matching) / 3

/-- From here on two words are taken for similar. -/
def threshold : Rat := 7 / 10

/-- The words of the list that are similar to `word`, the most similar last. Of words that are as
similar as each other the order stays. -/
def similarTo (word : String) (words : List String) : List String :=
  let scored := words.map fun w => (score word.toList w.toList, w)
  let close := scored.filter fun (score, _) => threshold ≤ score
  (close.mergeSort fun x y => x.1 ≤ y.1).map (·.2)

/-- The word of the list that is the most similar to `word`, if any is similar. -/
def mostSimilar? (word : String) (words : List String) : Option String :=
  (similarTo word words).getLast?

end Similarity

end FieldPaths
