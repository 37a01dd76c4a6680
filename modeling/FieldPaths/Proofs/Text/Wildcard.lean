import FieldPaths.Text.Wildcard
import Mathlib.Data.List.Basic

/-!
# What a wildcard pattern describes

A pattern describes the names that it becomes when something is written for each of its stars.
Trying a name looks different: the pattern is cut at its stars, and what is between two of them is
taken where it occurs first, once and for all.

That no match is lost by it is a matter of what is left. Every piece behind a star may have
anything in front, so with more text in front it is still found (`Closes.lengthen`). The first
occurrence of a piece leaves the most: whatever any other occurrence leaves is the end of that
(`exists_after?`). So if the pieces that follow can close what is left by some occurrence, they can
close what is left by the first one.
-/

namespace FieldPaths

namespace Wildcard

/-- The name is the pattern with some run of characters, maybe an empty one, in the place of each
star. Every other character stands for itself. -/
inductive Describes : (pattern name : List Char) → Prop
  | nil : Describes [] []
  | star {pattern name : List Char} (run : List Char) (h : Describes pattern name) :
      Describes ('*' :: pattern) (run ++ name)
  | char {c : Char} {pattern name : List Char} (hc : c ≠ '*') (h : Describes pattern name) :
      Describes (c :: pattern) (c :: name)

/-! ## Patterns in pieces -/

/-- The text is the pieces in their order, with some run of characters before each of them and
nothing behind the last. -/
inductive Closes : List (List Char) → List Char → Prop
  | nil : Closes [] []
  | cons (run : List Char) {piece rest : List Char} {pieces : List (List Char)}
      (h : Closes pieces rest) : Closes (piece :: pieces) (run ++ (piece ++ rest))

theorem closes_nil {text : List Char} : Closes [] text ↔ text = [] := by
  constructor
  · rintro ⟨⟩
    rfl
  · rintro rfl
    exact .nil

theorem closes_cons {piece text : List Char} {pieces : List (List Char)} :
    Closes (piece :: pieces) text ↔
      ∃ run rest, text = run ++ (piece ++ rest) ∧ Closes pieces rest := by
  constructor
  · rintro (_ | ⟨run, h⟩)
    exact ⟨run, _, rfl, h⟩
  · rintro ⟨run, rest, rfl, h⟩
    exact .cons run h

/-- More text in front goes to the first star. -/
theorem Closes.lengthen {pieces : List (List Char)} {text longer : List Char}
    (h : Closes pieces text) (hne : pieces ≠ []) (hlonger : text <:+ longer) :
    Closes pieces longer := by
  obtain ⟨front, rfl⟩ := hlonger
  cases h with
  | nil => exact absurd rfl hne
  | cons run h =>
    rw [← List.append_assoc]
    exact .cons (front ++ run) h

theorem pieces_star (pattern : List Char) : pieces ('*' :: pattern) = [] :: pieces pattern := by
  rw [pieces, List.splitOn_cons_eq_if_modifyHead, if_pos (beq_self_eq_true '*'), pieces]

theorem pieces_char {c : Char} (hc : c ≠ '*') {pattern first : List Char}
    {more : List (List Char)} (h : pieces pattern = first :: more) :
    pieces (c :: pattern) = (c :: first) :: more := by
  rw [pieces] at h
  rw [pieces, List.splitOn_cons_eq_if_modifyHead, if_neg (by simpa using hc), h,
    List.modifyHead_cons]

theorem exists_pieces (pattern : List Char) : ∃ first more, pieces pattern = first :: more :=
  List.exists_cons_of_ne_nil (List.splitOn_ne_nil '*' pattern)

/-- The first piece stands at the front of what is described, and the others close the rest. -/
theorem describes_iff_closes {pattern name first : List Char} {more : List (List Char)}
    (h : pieces pattern = first :: more) :
    Describes pattern name ↔ ∃ rest, name = first ++ rest ∧ Closes more rest := by
  induction pattern generalizing name first more with
  | nil =>
    obtain ⟨rfl, rfl⟩ := List.cons.inj h
    constructor
    · rintro ⟨⟩
      exact ⟨[], rfl, .nil⟩
    · rintro ⟨rest, rfl, hrest⟩
      rw [closes_nil.mp hrest]
      exact .nil
  | cons c pattern ih =>
    obtain ⟨first', more', h'⟩ := exists_pieces pattern
    by_cases hc : c = '*'
    · -- the star is the run before the first piece of what follows it
      subst hc
      rw [pieces_star, h'] at h
      obtain ⟨rfl, rfl⟩ := List.cons.inj h
      constructor
      · rintro (_ | ⟨run, hname⟩ | ⟨hc, -⟩)
        · obtain ⟨rest, rfl, hrest⟩ := (ih h').mp hname
          exact ⟨_, rfl, .cons run hrest⟩
        · exact absurd rfl hc
      · rintro ⟨_, rfl, hclose⟩
        obtain ⟨run, rest, rfl, hrest⟩ := closes_cons.mp hclose
        exact .star run ((ih h').mpr ⟨rest, rfl, hrest⟩)
    · rw [pieces_char hc h'] at h
      obtain ⟨rfl, rfl⟩ := List.cons.inj h
      constructor
      · rintro (_ | _ | ⟨-, hname⟩)
        · exact absurd rfl hc
        · obtain ⟨rest, rfl, hrest⟩ := (ih h').mp hname
          exact ⟨rest, rfl, hrest⟩
      · rintro ⟨rest, rfl, hrest⟩
        exact .char hc ((ih h').mpr ⟨rest, rfl, hrest⟩)

/-! ## First occurrences -/

theorem eq_append_of_after? {piece text rest : List Char} (h : after? piece text = some rest) :
    ∃ run, text = run ++ (piece ++ rest) := by
  induction text with
  | nil =>
    rw [after?] at h
    split_ifs at h with hpiece
    cases h
    exact ⟨[], by rw [List.isEmpty_iff.mp hpiece]; rfl⟩
  | cons c text ih =>
    rw [after?] at h
    split_ifs at h with hpiece
    · cases h
      have hprefix := List.isPrefixOf_iff_prefix.mp hpiece
      exact ⟨[], (List.prefix_iff_eq_append.mp hprefix).symm⟩
    · obtain ⟨run, rfl⟩ := ih h
      exact ⟨c :: run, rfl⟩

/-- A piece that occurs is found, and what any occurrence leaves is the end of what is left. -/
theorem exists_after? {piece text run rest : List Char} (h : text = run ++ (piece ++ rest)) :
    ∃ found, after? piece text = some found ∧ rest <:+ found := by
  induction text generalizing run with
  | nil =>
    obtain ⟨-, hpiece⟩ := List.append_eq_nil_iff.mp h.symm
    obtain ⟨rfl, rfl⟩ := List.append_eq_nil_iff.mp hpiece
    exact ⟨[], rfl, List.suffix_refl []⟩
  | cons c text ih =>
    rw [after?]
    split_ifs with hpiece
    · refine ⟨_, rfl, ?_⟩
      -- this occurrence is not before the first one
      have hrest : rest = (c :: text).drop (run.length + piece.length) := by
        rw [h, ← List.append_assoc, ← List.length_append, List.drop_left]
      rw [hrest]
      exact List.drop_suffix_drop_left _ (Nat.le_add_left ..)
    · cases run with
      | nil =>
        rw [h] at hpiece
        exact absurd (List.isPrefixOf_iff_prefix.mpr (List.prefix_append piece rest)) hpiece
      | cons d run => exact ih (List.cons.inj h).2

/-- **Nothing is lost by taking first occurrences.** -/
theorem closes_iff {pieces : List (List Char)} {text : List Char} :
    closes pieces text = true ↔ Closes pieces text := by
  fun_induction closes pieces text with
  | case1 text => rw [List.isEmpty_iff, closes_nil]
  | case2 last text =>
    rw [List.isSuffixOf_iff_suffix, closes_cons]
    constructor
    · rintro ⟨run, rfl⟩
      exact ⟨run, [], by rw [List.append_nil], .nil⟩
    · rintro ⟨run, rest, rfl, hrest⟩
      rw [closes_nil.mp hrest, List.append_nil]
      exact List.suffix_append run last
  | case3 piece next more text hafter =>
    refine iff_of_false Bool.false_ne_true fun hclose ↦ ?_
    obtain ⟨run, rest, htext, -⟩ := closes_cons.mp hclose
    obtain ⟨found, hfound, -⟩ := exists_after? htext
    rw [hafter] at hfound
    cases hfound
  | case4 piece next more text found hafter ih =>
    rw [ih]
    constructor
    · intro hclose
      obtain ⟨run, rfl⟩ := eq_append_of_after? hafter
      exact .cons run hclose
    · intro hclose
      obtain ⟨run, rest, htext, hrest⟩ := closes_cons.mp hclose
      obtain ⟨found', hfound, hsuffix⟩ := exists_after? htext
      obtain rfl := Option.some.inj (hafter.symm.trans hfound)
      exact hrest.lengthen (List.cons_ne_nil next more) hsuffix

/-! ## Trying a name -/

/-- **A name is accepted exactly if the pattern describes it.** -/
theorem accepts_iff (pattern name : String) :
    accepts pattern name = true ↔ Describes pattern.toList name.toList := by
  obtain ⟨first, more, hpieces⟩ := exists_pieces pattern.toList
  rw [describes_iff_closes hpieces, accepts, hpieces, Bool.and_eq_true,
    List.isPrefixOf_iff_prefix, closes_iff]
  constructor
  · rintro ⟨⟨rest, hname⟩, hclose⟩
    rw [← hname, List.drop_left] at hclose
    exact ⟨rest, hname.symm, hclose⟩
  · rintro ⟨rest, hname, hclose⟩
    rw [hname, List.drop_left]
    exact ⟨List.prefix_append first rest, hclose⟩

/-- One character of the name is not taken for two of the pattern. -/
example : accepts "ab*ba" "aba" = false := by decide +kernel

end Wildcard

end FieldPaths
