import FieldPaths.Descriptor
import FieldPaths.Rust.Name

/-!
# Legal identifiers

What Rust accepts where it wants an identifier, stated of the characters as they are written, and
which of the ways to write a name lead to it. A name that can be an identifier is one as it is
unless it is a keyword. The raw form makes up for that, and so does a mark in front, because no
keyword starts with one; a suffix does not, because a keyword can end in anything.
-/

namespace FieldPaths

namespace Rust

/-! ## Words and keywords -/

/-- ASCII letters, digits and `_`, with no digit first. -/
def IsWord (name : String) : Prop :=
  ∃ c more, name.toList = c :: more ∧ (c = '_' ∨ c.isAlpha = true) ∧
    ∀ d ∈ more, d = '_' ∨ d.isAlphanum = true

/-- A name that Rust accepts as an identifier the way it is written: a word that Rust has not
taken, or a keyword in its raw form. -/
def IsLegal (name : String) : Prop :=
  (IsWord name ∧ name ≠ "_" ∧ name ∉ keywords ∧ name ∉ ["self", "Self", "super", "crate"]) ∨
    ∃ keyword ∈ keywords, name = "r#" ++ keyword

theorem isIdentifier_iff {name : String} :
    isIdentifier name = true ↔ IsWord name ∧ name ∉ reservedNames := by
  rw [isIdentifier, Bool.and_eq_true, and_comm, IsWord]
  refine and_congr ?_ (by simp)
  cases name.toList with
  | nil => simp
  | cons c more =>
    simp only [isIdentifierStart, isIdentifierContinue, Bool.and_eq_true, Bool.or_eq_true,
      beq_iff_eq, List.all_eq_true]
    constructor
    · exact fun h ↦ ⟨c, more, rfl, h⟩
    · rintro ⟨_, _, hname, h⟩
      cases hname
      exact h

/-- The mark of the raw form is in no word. -/
theorem IsWord.ne_raw {name keyword : String} (h : IsWord name) : name ≠ "r#" ++ keyword := by
  rintro rfl
  obtain ⟨c, more, hname, -, hmore⟩ := h
  have hraw : ("r#" ++ keyword).toList = 'r' :: '#' :: keyword.toList := String.toList_append
  rw [hraw, List.cons_eq_cons] at hname
  have hmark := hmore '#' (hname.2 ▸ List.mem_cons_self)
  rcases hmark with h | h
  · exact absurd h (by decide)
  · exact absurd h (by decide)

/-- As it is, a name that can be an identifier is legal exactly if it is no keyword. -/
theorem isLegal_iff_of_isIdentifier {name : String} (h : isIdentifier name = true) :
    IsLegal name ↔ name ∉ keywords := by
  obtain ⟨hword, hreserved⟩ := isIdentifier_iff.mp h
  constructor
  · rintro (⟨-, -, hkeyword, -⟩ | ⟨keyword, -, hraw⟩)
    · exact hkeyword
    · exact absurd hraw hword.ne_raw
  · intro hkeyword
    rw [reservedNames, List.mem_cons, not_or] at hreserved
    exact .inl ⟨hword, hreserved.1, hkeyword, hreserved.2⟩

/-! ## Ways to write a name -/

theorem identifier_isLegal {name : String} (h : isIdentifier name = true) :
    IsLegal (identifier name) := by
  rw [identifier]
  by_cases hkeyword : isKeyword name = true
  · rw [if_pos hkeyword]
    exact .inr ⟨name, List.contains_iff_mem.mp hkeyword, rfl⟩
  · rw [if_neg hkeyword, isLegal_iff_of_isIdentifier h]
    exact fun hmem ↦ hkeyword (List.contains_iff_mem.mpr hmem)

/-- Nothing that Rust has taken is a mark with a name behind it. -/
theorem descriptorName_not_mem {name : String} (h : name ≠ "") :
    descriptorName name ∉ keywords ++ reservedNames := by
  intro hmem
  -- of all that Rust has taken, only `_` starts like this, and it ends there
  have htaken : ∀ taken ∈ keywords ++ reservedNames,
      taken.toList.head? = some '_' → taken.toList = ['_'] := by decide +kernel
  have hlist : (descriptorName name).toList = '_' :: name.toList := by
    rw [descriptorName, String.toList_append]
    rfl
  have hmark := htaken _ hmem (by rw [hlist]; rfl)
  rw [hlist, List.cons_eq_cons] at hmark
  exact h (String.toList_eq_nil_iff.mp hmark.2)

theorem descriptorName_isLegal {name : String} (h : isIdentifier name = true) :
    IsLegal (descriptorName name) := by
  obtain ⟨⟨c, more, hname, hstart, hmore⟩, -⟩ := isIdentifier_iff.mp h
  have hlist : (descriptorName name).toList = '_' :: c :: more := by
    rw [descriptorName, String.toList_append, hname]
    rfl
  have hnew : descriptorName name ∉ keywords ++ reservedNames := by
    refine descriptorName_not_mem fun hempty ↦ ?_
    rw [hempty] at hname
    cases hname
  rw [List.mem_append, not_or] at hnew
  have hword : IsWord (descriptorName name) := by
    refine ⟨'_', c :: more, hlist, .inl rfl, fun d hd ↦ ?_⟩
    rcases List.mem_cons.mp hd with rfl | hd
    · exact hstart.imp_right fun h ↦ by rw [Char.isAlphanum, h, Bool.true_or]
    · exact hmore d hd
  exact (isLegal_iff_of_isIdentifier (isIdentifier_iff.mpr ⟨hword, hnew.2⟩)).mpr hnew.1

theorem subpathParam_isLegal : IsLegal subpathParam :=
  (isLegal_iff_of_isIdentifier (by decide +kernel)).mpr (by decide +kernel)

end Rust

end FieldPaths
