import FieldPaths.Proofs.Descriptor.Fieldwise
import Mathlib.Data.List.Flatten

/-!
# Leaves and builders

All that a leaf table decides about a declaration is which of its fields have builders
(`Declaration.composites`). Constants are the same with every table.

A table with more names has more leaves. What it takes away are builders, those of the fields whose
type has one of the names and is no array. A static method is in the way of a builder only, so no
conflict comes up that was not there before.
-/

namespace FieldPaths

/-! ## Leaf tables -/

namespace LeafTable

variable {leaves leaves' : LeafTable} {ty : TypeRef}

theorem isLeaf_iff : leaves.isLeaf ty = true ↔ ty.isArray = false ∧
    ((LeafType.ofName? ty.name).isSome = true ∨ ty.name ∈ leaves.added) := by
  rw [isLeaf, Bool.and_eq_true, Bool.not_eq_true', Bool.or_eq_true, List.contains_iff_mem]

/-- What is a leaf stays one when names are added. -/
theorem isLeaf_of_subset (h : leaves.added ⊆ leaves'.added) (hleaf : leaves.isLeaf ty = true) :
    leaves'.isLeaf ty = true := by
  rw [isLeaf_iff] at hleaf ⊢
  exact ⟨hleaf.1, hleaf.2.imp_right fun hname ↦ h hname⟩

/-- What is no leaf stays none if it is an array or has none of the names. -/
theorem not_isLeaf_of_subset (h : leaves.added ⊆ leaves'.added) :
    (!leaves'.isLeaf ty) = ((ty.isArray || ty.name ∉ leaves'.added) && !leaves.isLeaf ty) := by
  by_cases hleaf : leaves.isLeaf ty = true
  · rw [hleaf, isLeaf_of_subset h hleaf, Bool.not_true, Bool.and_false]
  · have hnone := hleaf
    rw [isLeaf_iff, not_and, not_or] at hnone
    rw [Bool.not_eq_true] at hleaf
    rw [hleaf, Bool.not_false, Bool.and_true, isLeaf]
    by_cases harray : ty.isArray = true
    · simp [harray]
    · rw [Bool.not_eq_true] at harray
      simp [harray, (hnone harray).1]

end LeafTable

/-! ## Builders -/

variable {L : Type}

/-- The builder of a field that has one. -/
def Field.pathBuilder (field : Field L) : PathBuilder :=
  ⟨descriptorName field.name, subpathParam, field.name, field.name ++ pathSeparator⟩

theorem buildersOf_map_descriptor (fields : List (Field L)) (leaves : LeafTable) :
    buildersOf (fields.map (·.descriptor leaves))
      = (fields.filter (!leaves.isLeaf ·.type)).map Field.pathBuilder := by
  rw [buildersOf, List.filterMap_map]
  induction fields with
  | nil => rfl
  | cons field more ih =>
    rw [List.filterMap_cons, Function.comp_apply, List.filter_cons, ih, Field.descriptor]
    by_cases hleaf : leaves.isLeaf field.type = true
    · simp [hleaf]
    · simp [hleaf, Field.pathBuilder]

namespace Declaration

/-- The fields of a declaration that have builders. -/
def composites (decl : Declaration L) (leaves : LeafTable) : List (Field L) :=
  match decl.kind with
  | .interface => []
  | .cls => decl.eligibleFields.filter (!leaves.isLeaf ·.type)

variable {decl : Declaration L} {leaves leaves' : LeafTable}

theorem buildersOf_synthesis (decl : Declaration L) (leaves : LeafTable) :
    buildersOf (decl.synthesis leaves).descriptors
      = (decl.composites leaves).map Field.pathBuilder := by
  rw [synthesis, composites]
  cases decl.kind with
  | interface => rfl
  | cls => exact buildersOf_map_descriptor decl.eligibleFields leaves

theorem constantsOf_synthesis (decl : Declaration L) (leaves leaves' : LeafTable) :
    constantsOf (decl.synthesis leaves').descriptors
      = constantsOf (decl.synthesis leaves).descriptors := by
  rw [synthesis, synthesis]
  cases decl.kind with
  | interface => rfl
  | cls =>
    rw [constantsOf, constantsOf, List.map_map, List.map_map]
    rfl

/-- Where there is no descriptor with one table, all tables come to the same. -/
theorem synthesis_eq_of_descriptors_eq_nil (h : (decl.synthesis leaves).descriptors = [])
    (leaves' : LeafTable) : decl.synthesis leaves' = decl.synthesis leaves := by
  rw [synthesis] at h ⊢
  rw [synthesis]
  cases hkind : decl.kind with
  | interface => rfl
  | cls =>
    rw [hkind] at h
    rw [List.map_eq_nil_iff.mp h]
    rfl

section Adding

variable (h : leaves.added ⊆ leaves'.added)

include h

/-- The fields that lose their builders to added names are those whose type has such a name and is
no array. -/
theorem composites_of_subset : decl.composites leaves' = (decl.composites leaves).filter
    fun field ↦ field.type.isArray || field.type.name ∉ leaves'.added := by
  rw [composites, composites]
  cases decl.kind with
  | interface => rfl
  | cls =>
    dsimp only
    rw [List.filter_filter]
    exact List.filter_congr fun field _ ↦ LeafTable.not_isLeaf_of_subset h

theorem conflicts_sublist (field : Field L) :
    (decl.conflicts leaves' field).Sublist (decl.conflicts leaves field) := by
  rw [conflicts_eq, conflicts_eq]
  refine List.Sublist.append_left ?_ _
  by_cases hconflict :
      leaves'.isLeaf field.type = false ∧ decl.HasStatic .function ("_" ++ field.name)
  · have hleaf : leaves.isLeaf field.type = false := by
      rw [← Bool.not_eq_true]
      intro hleaf
      rw [LeafTable.isLeaf_of_subset h hleaf] at hconflict
      exact Bool.noConfusion hconflict.1
    rw [if_pos hconflict, if_pos ⟨hleaf, hconflict.2⟩]
  · rw [if_neg hconflict]
    exact List.nil_sublist _

theorem errors_sublist :
    (decl.synthesis leaves').errors.Sublist (decl.synthesis leaves).errors := by
  rw [synthesis, synthesis]
  cases decl.kind with
  | interface => exact List.Sublist.refl _
  | cls => exact List.Sublist.flatMap_right _ fun field _ ↦ conflicts_sublist h field

end Adding

end Declaration

end FieldPaths
