import FieldPaths.Descriptor

/-!
# When descriptors conflict

The search for conflicts, read off what a declaration has. A conflict is a matter of one field and
one static member at a time, so that a declaration is free of conflicts is a condition on the
pairs, and which one is found first plays no part.
-/

namespace FieldPaths

variable {L : Type}

theorem Field.isEligible_iff {field : Field L} : field.isEligible = true ↔
    field.modifiers.isFinal = false ∧ field.modifiers.isStatic = false ∧ field.attributes = [] := by
  rw [Field.isEligible, Field.exclusion]
  cases field.modifiers.isFinal <;> cases field.modifiers.isStatic <;>
    cases field.attributes <;> simp

theorem Field.builder_eq {field : Field L} {leaves : LeafTable} {builder : PathBuilder}
    (h : (field.descriptor leaves).builder = some builder) : builder =
      ⟨descriptorName field.name, subpathParam, field.name, field.name ++ pathSeparator⟩ := by
  rw [Field.descriptor] at h
  split at h
  · cases h
  · exact (Option.some.inj h).symm

namespace Declaration

variable {decl : Declaration L} {leaves : LeafTable} {field : Field L} {name : String}

theorem mem_eligibleFields : field ∈ decl.eligibleFields ↔ field ∈ decl.fields ∧
    field.modifiers.isFinal = false ∧ field.modifiers.isStatic = false ∧ field.attributes = [] := by
  rw [eligibleFields, List.mem_filter, Field.isEligible_iff]

theorem field_mem_staticMembers : ⟨name, .field⟩ ∈ decl.staticMembers ↔
    ∃ field ∈ decl.fields, field.modifiers.isStatic = true ∧ field.name = name := by
  simp [staticMembers, and_assoc]

theorem function_mem_staticMembers : ⟨name, .function⟩ ∈ decl.staticMembers ↔
    ∃ method ∈ decl.methods, method.isStatic = true ∧ method.name = name := by
  simp [staticMembers, and_assoc]

theorem conflict?_eq_none_iff {kind : MemberKind} :
    decl.conflict? field name kind = none ↔ ⟨name, kind⟩ ∉ decl.staticMembers := by
  simp [conflict?]

theorem conflicts_eq_nil_iff : decl.conflicts leaves field = [] ↔
    ⟨descriptorName field.name, .field⟩ ∉ decl.staticMembers ∧
      (leaves.isLeaf field.type = false →
        ⟨descriptorName field.name, .function⟩ ∉ decl.staticMembers) := by
  rw [conflicts, List.append_eq_nil_iff, Option.toList_eq_nil_iff, Option.toList_eq_nil_iff,
    conflict?_eq_none_iff]
  refine and_congr_right fun _ ↦ ?_
  cases hleaf : leaves.isLeaf field.type with
  | true => simp [Field.descriptor, hleaf]
  | false => simp [Field.descriptor, hleaf, conflict?_eq_none_iff]

/-- Every descriptor is that of a field. -/
theorem exists_field_of_mem_synthesis {descriptor : Descriptor}
    (h : descriptor ∈ (decl.synthesis leaves).descriptors) :
    ∃ field ∈ decl.fields, descriptor = field.descriptor leaves := by
  rw [synthesis] at h
  cases hkind : decl.kind with
  | interface =>
    rw [hkind] at h
    cases h
  | cls =>
    rw [hkind] at h
    obtain ⟨field, hfield, rfl⟩ := List.mem_map.mp h
    exact ⟨field, (List.mem_filter.mp hfield).1, rfl⟩

/-- There is no error exactly if the declaration is a class and no eligible field has a conflict. -/
theorem synthesis_errors_eq_nil_iff : (decl.synthesis leaves).errors = [] ↔
    decl.kind = .cls ∧ ∀ field ∈ decl.eligibleFields, decl.conflicts leaves field = [] := by
  rw [synthesis]
  cases decl.kind with
  | interface => simp
  | cls => simp [List.flatMap_eq_nil_iff]

/-- There are neither errors nor descriptors exactly if the declaration is a class without an
eligible field. -/
theorem synthesis_eq_nil_iff :
    (decl.synthesis leaves).errors = [] ∧ (decl.synthesis leaves).descriptors = [] ↔
      decl.kind = .cls ∧ decl.eligibleFields = [] := by
  rw [synthesis_errors_eq_nil_iff, synthesis]
  cases decl.kind with
  | interface => simp
  | cls =>
    rw [List.map_eq_nil_iff]
    constructor
    · rintro ⟨⟨hkind, -⟩, hnil⟩
      exact ⟨hkind, hnil⟩
    · rintro ⟨hkind, hnil⟩
      exact ⟨⟨hkind, by simp [hnil]⟩, hnil⟩

theorem forall_conflicts_eq_nil_iff :
    (∀ field ∈ decl.eligibleFields, decl.conflicts leaves field = []) ↔
      ∀ field ∈ decl.fields, field.modifiers.isFinal = false → field.modifiers.isStatic = false →
        field.attributes = [] →
          (∀ other ∈ decl.fields,
            other.modifiers.isStatic = true → other.name ≠ "_" ++ field.name) ∧
          (leaves.isLeaf field.type = false →
            ∀ method ∈ decl.methods, method.isStatic = true → method.name ≠ "_" ++ field.name) := by
  simp only [mem_eligibleFields, conflicts_eq_nil_iff, field_mem_staticMembers,
    function_mem_staticMembers, not_exists, not_and, and_imp]
  rfl

end Declaration

end FieldPaths
