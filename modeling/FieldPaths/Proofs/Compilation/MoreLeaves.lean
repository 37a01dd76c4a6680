import FieldPaths.Proofs.Descriptor.Leaves
import FieldPaths.Proofs.Names

/-!
# Compilations with more leaves

Names added to the leaf table can only take builders away. Sources are read and declarations kept
without the table, and so are the constants made, so two compilations that differ in the table
differ in the builders of their types and in what there is to say about these.

That is less with more leaves. Whether a selected class is reported as empty is a matter of its
constants, and the errors of a declaration are with more leaves some of those it has anyway. So what
was valid stays valid.
-/

namespace FieldPaths

variable {leaves leaves' : LeafTable}

/-! ## One declaration -/

namespace Declaration

variable {decl : Declaration Span}

theorem diagnostics_of_descriptors_ne_nil (h : (decl.synthesis leaves).descriptors ≠ []) :
    decl.diagnostics leaves = (decl.synthesis leaves).errors.map (·.diagnostic) := by
  rw [diagnostics, if_neg]
  rw [Bool.and_eq_true, not_and, List.isEmpty_iff]
  exact fun _ ↦ h

theorem filter_isWarning_errors (decl : Declaration Span) (leaves : LeafTable) :
    ((decl.synthesis leaves).errors.map (·.diagnostic)).filter (·.isWarning) = [] := by
  have hnone := Diagnostic.hasWarnings_eq_false (synthesis_errors_isError decl leaves)
  rw [Diagnostic.hasWarnings, List.any_eq_false] at hnone
  exact List.filter_eq_nil_iff.mpr hnone

/-- With more leaves there is less to say, and the same warnings. -/
theorem diagnostics_of_subset (h : leaves.added ⊆ leaves'.added) (decl : Declaration Span) :
    (decl.diagnostics leaves').Sublist (decl.diagnostics leaves) ∧
      (decl.diagnostics leaves').filter (·.isWarning)
        = (decl.diagnostics leaves).filter (·.isWarning) := by
  by_cases hnone : (decl.synthesis leaves).descriptors = []
  · rw [diagnostics, diagnostics, synthesis_eq_of_descriptors_eq_nil hnone leaves']
    exact ⟨List.Sublist.refl _, rfl⟩
  · have hnone' : (decl.synthesis leaves').descriptors ≠ [] := by
      intro hnone'
      rw [← synthesis_eq_of_descriptors_eq_nil hnone' leaves] at hnone'
      exact hnone hnone'
    rw [diagnostics_of_descriptors_ne_nil hnone, diagnostics_of_descriptors_ne_nil hnone',
      filter_isWarning_errors, filter_isWarning_errors]
    exact ⟨(errors_sublist h).map _, rfl⟩

end Declaration

/-! ## Compilations -/

/-- What becomes of the type of a declaration when names are added to the leaf table. -/
structure TypeSchema.IsLessened (decl : Declaration Span) (leaves : LeafTable) (added : List String)
    (type type' : TypeSchema) : Prop where
  name : type'.name = type.name
  kind : type'.kind = type.kind
  location : type'.location = type.location
  constants : type'.constants = type.constants
  /-- Before, the builders are those of the fields whose type is no leaf. -/
  builders : type.builders = (decl.composites leaves).map Field.pathBuilder
  /-- Afterwards, those of them are left whose field is an array or has none of the names. -/
  builders_left : type'.builders = ((decl.composites leaves).filter fun field ↦
    field.type.isArray || field.type.name ∉ added).map Field.pathBuilder
  builders_sublist : type'.builders.Sublist type.builders
  isValid : type.isValid = true → type'.isValid = true

theorem Declaration.schema_isLessened (h : leaves.added ⊆ leaves'.added) (decl : Declaration Span) :
    (decl.schema leaves).IsLessened decl leaves leaves'.added (decl.schema leaves') := by
  have hbuilders : (decl.schema leaves).builders = (decl.composites leaves).map Field.pathBuilder :=
    decl.buildersOf_synthesis leaves
  have hleft : (decl.schema leaves').builders = ((decl.composites leaves).filter fun field ↦
      field.type.isArray || field.type.name ∉ leaves'.added).map Field.pathBuilder := by
    rw [← composites_of_subset h]
    exact decl.buildersOf_synthesis leaves'
  refine ⟨rfl, rfl, rfl, decl.constantsOf_synthesis leaves leaves', hbuilders, hleft, ?_, ?_⟩
  · rw [hbuilders, hleft]
    exact List.filter_sublist.map _
  · intro hvalid
    have hnil : (decl.synthesis leaves).errors = [] := List.isEmpty_iff.mp hvalid
    have hsublist : (decl.synthesis leaves').errors.Sublist (decl.synthesis leaves).errors :=
      errors_sublist h
    rw [hnil, List.sublist_nil] at hsublist
    exact List.isEmpty_iff.mpr hsublist

/-- **More leaves only take builders away.** Two compilations of the same sources, one of which has
more names in its leaf table, have the same declarations and the same selected types with the same
constants. Of the builders of a type those are left whose field is an array or has a type with none
of the names. The errors are some of those there were, in their order, and the warnings are the
same. So what is valid stays valid. -/
theorem compile_moreLeaves (sources : List Source) (selection : Selection)
    (h : leaves.added ⊆ leaves'.added) :
    let c := compile sources leaves selection
    let c' := compile sources leaves' selection
    c'.declarations = c.declarations ∧ c'.unmatched = c.unmatched ∧
      List.Forall₂ (fun type type' ↦ ∃ decl, c.declaration? type.name = some decl ∧
        type.IsLessened decl leaves leaves'.added type') c.types c'.types ∧
      (c'.diagnostics.filter (·.isError)).Sublist (c.diagnostics.filter (·.isError)) ∧
      c'.diagnostics.filter (·.isWarning) = c.diagnostics.filter (·.isWarning) ∧
      (c.isValid = true → c'.isValid = true) := by
  intro c c'
  have htypes : List.Forall₂ (fun type type' ↦ ∃ decl, c.declaration? type.name = some decl ∧
      type.IsLessened decl leaves leaves'.added type') c.types c'.types := by
    change List.Forall₂ _ (List.map _ _) (List.map _ _)
    rw [List.forall₂_map_left_iff, List.forall₂_map_right_iff, List.forall₂_same]
    intro decl hdecl
    exact ⟨decl, declaration?_of_mem leaves selection (List.mem_filter.mp hdecl).1,
      decl.schema_isLessened h⟩
  have hsublist : c'.diagnostics.Sublist c.diagnostics :=
    List.Sublist.append_left
      (List.Sublist.flatMap_right _ fun decl _ ↦ (decl.diagnostics_of_subset h).1) _
  have hwarnings : c'.diagnostics.filter (·.isWarning) = c.diagnostics.filter (·.isWarning) := by
    change List.filter _ (_ ++ _) = List.filter _ (_ ++ _)
    rw [List.filter_append, List.filter_append, List.filter_flatMap, List.filter_flatMap]
    exact congrArg _ (List.flatMap_congr fun decl _ ↦ (decl.diagnostics_of_subset h).2)
  refine ⟨rfl, rfl, htypes, hsublist.filter _, hwarnings, fun hvalid ↦ ?_⟩
  rw [Compilation.isValid, Bool.not_eq_true', Diagnostic.hasErrors, List.any_eq_false] at hvalid ⊢
  exact fun d hd ↦ hvalid d (hsublist.subset hd)

/-- With `Money` as a leaf, `a` loses its builder and with it the conflict with the method `_a`. The
array `b` keeps its builder. -/
theorem compile_moreLeaves_money :
    let sources : List Source :=
      [⟨.inline, "@Schema class A \x7b static fn _a() a: x.Money b: Money[] \x7d"⟩]
    let leaves : LeafTable := ⟨["Money"]⟩
    let c := compile sources {} .marked
    let c' := compile sources leaves .marked
    c.isValid = false ∧ c'.isValid = true ∧
      (c'.types.map (·.builders)) = [[⟨"_b", "subpath", "b", "b."⟩]] ∧
      ([] : List String) ⊆ leaves.added ∧
      c'.declarations = c.declarations ∧ c'.unmatched = c.unmatched ∧
      List.Forall₂ (fun type type' ↦ ∃ decl, c.declaration? type.name = some decl ∧
        type.IsLessened decl {} leaves.added type') c.types c'.types ∧
      (c'.diagnostics.filter (·.isError)).Sublist (c.diagnostics.filter (·.isError)) ∧
      c'.diagnostics.filter (·.isWarning) = c.diagnostics.filter (·.isWarning) ∧
      (c.isValid = true → c'.isValid = true) := by
  intro sources leaves c c'
  have hsubset : ([] : List String) ⊆ leaves.added := List.nil_subset _
  exact ⟨by decide +kernel, by decide +kernel, by decide +kernel, hsubset,
    compile_moreLeaves sources .marked hsubset⟩

end FieldPaths
