import FieldPaths.Proofs.Compilation.Kept

/-!
# The names of a schema

Every name that is declared is spelled by a token, so it is made of the characters that names have.
A name in a compilation belongs to one declaration only.
-/

namespace FieldPaths

/-! ## The names of a compilation -/

section

variable {sources : List Source} (leaves : LeafTable) (selection : Selection)
  {decl : Declaration Span} (h : decl ∈ (compile sources leaves selection).declarations)

include h

theorem namesAre_of_mem_declarations : decl.NamesAre IsSchemaName := by
  rw [compile_declarations] at h
  obtain ⟨i, source, -, hread⟩ := mem_parsedFrom (keepFirst_subset _ _ h)
  exact SchemaFile.read_namesAre _ source.text decl hread

theorem isName_of_mem_declarations : Token.IsName decl.name.toList :=
  (namesAre_of_mem_declarations leaves selection h).name.1

/-- A name is looked up to what it was declared as. -/
theorem declaration?_of_mem :
    (compile sources leaves selection).declaration? decl.name = some decl :=
  find?_of_nodup (compile_declarations_nodup sources leaves selection) h

end

/-- The types of a valid compilation are those of classes, none of which has a static member of its
own with the name and the kind of something that is made for it. -/
theorem compile_types_no_conflict {sources : List Source} {leaves : LeafTable}
    {selection : Selection} (h : (compile sources leaves selection).isValid = true) :
    ∀ type ∈ (compile sources leaves selection).types, ∃ decl,
      (compile sources leaves selection).declaration? type.name = some decl ∧
        type = decl.schema leaves ∧ type.kind = .cls ∧
        ∀ descriptor ∈ type.descriptors,
          ⟨descriptor.constant.name, .field⟩ ∉ decl.staticMembers ∧
            ∀ builder ∈ descriptor.builder, ⟨builder.name, .function⟩ ∉ decl.staticMembers := by
  intro type htype
  obtain ⟨decl, hselected, rfl⟩ := List.mem_map.mp htype
  obtain ⟨hdecl, hselects⟩ := List.mem_filter.mp hselected
  obtain ⟨hkind, hconflicts⟩ := Declaration.synthesis_errors_eq_nil_iff.mp
    (((compile_isValid ..).mp h).2 decl hdecl hselects)
  refine ⟨decl, declaration?_of_mem leaves selection hdecl, rfl, hkind, ?_⟩
  intro descriptor hdescriptor
  rw [Declaration.schema, Declaration.synthesis, hkind] at hdescriptor
  obtain ⟨field, hfield, rfl⟩ := List.mem_map.mp hdescriptor
  obtain ⟨hstatic, hfunction⟩ := Declaration.conflicts_eq_nil_iff.mp (hconflicts field hfield)
  refine ⟨hstatic, fun builder hbuilder ↦ ?_⟩
  cases hleaf : leaves.isLeaf field.type with
  | true => simp [Field.descriptor, hleaf] at hbuilder
  | false =>
    rw [Field.builder_eq hbuilder]
    exact hfunction hleaf

end FieldPaths
