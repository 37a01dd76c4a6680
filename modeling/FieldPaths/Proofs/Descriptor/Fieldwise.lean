import FieldPaths.Proofs.Descriptor
import Mathlib.Data.List.Forall2

/-!
# Descriptors, one field at a time

What is made of a class is told here from its members alone. Two questions are asked about each
field, and they look at different things. Whether it has a descriptor, and which one, is a matter of
that field: no other member is looked at, so static members can come and go. Whether the descriptor
is in conflict is a matter of the names of the static members, and of nothing else that the class
has.

The answers for a class are those for its fields, in their order. A field with a conflict has its
descriptor all the same, so no answer depends on another one, and fields of one name are asked about
one by one.
-/

namespace FieldPaths

variable {L : Type}

/-! ## One field -/

/-- The field is neither final nor static and carries no marker. -/
def Field.isPlain (field : Field L) : Bool :=
  !field.modifiers.isFinal && !field.modifiers.isStatic && field.attributes.isEmpty

/-- The descriptor is the one that belongs to the field. -/
structure Descriptor.IsOf (leaves : LeafTable) (field : Field L) (descriptor : Descriptor) :
    Prop where
  named : descriptor.field = field.name
  constant : descriptor.constant = ⟨"_" ++ field.name, field.name⟩
  /-- There is a builder exactly if the type of the field is no leaf. -/
  isComposite_iff : descriptor.isComposite = true ↔ leaves.isLeaf field.type = false
  builder : ∀ builder ∈ descriptor.builder,
    builder = ⟨"_" ++ field.name, "subpath", field.name, field.name ++ "."⟩

namespace Field

variable (field : Field L) (leaves : LeafTable)

theorem isEligible_eq_isPlain : field.isEligible = field.isPlain := by
  rw [Bool.eq_iff_iff, isEligible_iff, isPlain]
  simp [and_assoc]

theorem isComposite_descriptor :
    (field.descriptor leaves).isComposite = !leaves.isLeaf field.type := by
  rw [Descriptor.isComposite, descriptor]
  by_cases hleaf : leaves.isLeaf field.type = true
  · simp [hleaf]
  · simp [hleaf]

theorem isOf_descriptor : (field.descriptor leaves).IsOf leaves field where
  named := rfl
  constant := rfl
  isComposite_iff := by rw [isComposite_descriptor, Bool.not_eq_true']
  builder _ hbuilder := builder_eq hbuilder

/-- The error that the descriptor of the field takes the name of a static member. -/
def collision (kind : MemberKind) : Located L :=
  ⟨.duplicateDescriptor field.name ("_" ++ field.name) kind, field.location⟩

end Field

namespace Declaration

variable (decl : Declaration L) (leaves : LeafTable)

/-- The declaration has a static member of this kind and name. -/
def HasStatic : MemberKind → String → Prop
  | .field, name => ∃ field ∈ decl.fields, field.modifiers.isStatic = true ∧ field.name = name
  | .function, name => ∃ method ∈ decl.methods, method.isStatic = true ∧ method.name = name

theorem mem_staticMembers {name : String} {kind : MemberKind} :
    ⟨name, kind⟩ ∈ decl.staticMembers ↔ decl.HasStatic kind name := by
  cases kind with
  | field => exact field_mem_staticMembers
  | function => exact function_mem_staticMembers

instance (kind : MemberKind) (name : String) : Decidable (decl.HasStatic kind name) :=
  decidable_of_iff _ decl.mem_staticMembers

theorem conflict?_toList (field : Field L) (kind : MemberKind) :
    (decl.conflict? field (descriptorName field.name) kind).toList
      = if decl.HasStatic kind ("_" ++ field.name) then [field.collision kind] else [] := by
  have hiff : decl.staticMembers.contains ⟨descriptorName field.name, kind⟩ = true ↔
      decl.HasStatic kind ("_" ++ field.name) := by
    rw [List.contains_iff_mem, mem_staticMembers]
    rfl
  rw [conflict?]
  by_cases h : decl.HasStatic kind ("_" ++ field.name)
  · rw [if_pos h, if_pos (hiff.mpr h)]
    rfl
  · rw [if_neg h, if_neg (mt hiff.mp h)]
    rfl

/-- The conflicts of one field are asked for among the static fields and, if it has a builder, among
the static methods. -/
theorem conflicts_eq (field : Field L) : decl.conflicts leaves field =
    (if decl.HasStatic .field ("_" ++ field.name) then [field.collision .field] else []) ++
      if leaves.isLeaf field.type = false ∧ decl.HasStatic .function ("_" ++ field.name) then
        [field.collision .function]
      else [] := by
  rw [← conflict?_toList, conflicts, Field.descriptor]
  dsimp only
  congr 1
  by_cases hleaf : leaves.isLeaf field.type = true
  · simp [hleaf]
  · rw [Bool.not_eq_true] at hleaf
    simp only [hleaf, true_and]
    exact conflict?_toList ..

/-! ## All fields -/

theorem eligibleFields_eq : decl.eligibleFields = decl.fields.filter (·.isPlain) :=
  List.filter_congr fun field _ ↦ field.isEligible_eq_isPlain

variable {decl} {other : Declaration L}

theorem synthesis_of_cls (hkind : decl.kind = .cls) : decl.synthesis leaves =
    ⟨decl.name, (decl.fields.filter (·.isPlain)).map (·.descriptor leaves),
      (decl.fields.filter (·.isPlain)).flatMap (decl.conflicts leaves)⟩ := by
  rw [synthesis, hkind, ← eligibleFields_eq]

theorem synthesis_of_interface (hkind : decl.kind = .interface) : decl.synthesis leaves =
    ⟨decl.name, [], [⟨.invalidTarget decl.name, decl.location⟩]⟩ := by
  rw [synthesis, hkind]

/-- Plain fields are among those that are not static. -/
theorem plain_eq_of_filter_eq
    (h : other.fields.filter (!·.modifiers.isStatic) = decl.fields.filter (!·.modifiers.isStatic)) :
    other.fields.filter (·.isPlain) = decl.fields.filter (·.isPlain) := by
  have hplain (decl : Declaration L) : decl.fields.filter (·.isPlain)
      = (decl.fields.filter (!·.modifiers.isStatic)).filter (·.isPlain) := by
    rw [List.filter_filter]
    refine List.filter_congr fun field _ ↦ ?_
    rw [Field.isPlain]
    by_cases hstatic : field.modifiers.isStatic = true
    · simp [hstatic]
    · simp [hstatic]
  rw [hplain, h, ← hplain]

/-- Conflicts look at the names of static members only. -/
theorem conflicts_congr (h : ∀ kind name, other.HasStatic kind name ↔ decl.HasStatic kind name)
    (field : Field L) : other.conflicts leaves field = decl.conflicts leaves field := by
  rw [conflicts_eq, conflicts_eq]
  simp only [h]

/-- **Descriptors are made field by field.** The descriptors of a class are those of its plain
fields, in their order, and other static fields, methods, markers, another name or another place
change nothing about them. Its errors are those of its plain fields, in their order and each at its
field: that a static field is named like the constant, and then, for a field whose type is no leaf,
that a static method is named like the builder. The names of static members are all that errors look
at beside the plain fields. An interface has no descriptors, and it is the only error. -/
theorem synthesis_fieldwise (decl : Declaration L) (leaves : LeafTable) :
    (decl.synthesis leaves).typeName = decl.name ∧
    (decl.kind = .cls →
      List.Forall₂ (Descriptor.IsOf leaves) (decl.fields.filter (·.isPlain))
        (decl.synthesis leaves).descriptors ∧
      (∀ other : Declaration L, other.kind = .cls →
        other.fields.filter (!·.modifiers.isStatic) = decl.fields.filter (!·.modifiers.isStatic) →
          (other.synthesis leaves).descriptors = (decl.synthesis leaves).descriptors) ∧
      (decl.synthesis leaves).errors = (decl.fields.filter (·.isPlain)).flatMap (fun field ↦
        (if decl.HasStatic .field ("_" ++ field.name) then [field.collision .field] else []) ++
          if leaves.isLeaf field.type = false ∧ decl.HasStatic .function ("_" ++ field.name) then
            [field.collision .function]
          else []) ∧
      (∀ other : Declaration L, other.kind = .cls →
        other.fields.filter (·.isPlain) = decl.fields.filter (·.isPlain) →
        (∀ kind name, other.HasStatic kind name ↔ decl.HasStatic kind name) →
          (other.synthesis leaves).errors = (decl.synthesis leaves).errors)) ∧
    (decl.kind = .interface → (decl.synthesis leaves).descriptors = [] ∧
      (decl.synthesis leaves).errors = [⟨.invalidTarget decl.name, decl.location⟩]) := by
  refine ⟨?_, fun hkind ↦ ?_, fun hkind ↦ ?_⟩
  · rw [synthesis]
    split <;> rfl
  · rw [synthesis_of_cls leaves hkind]
    refine ⟨?_, fun other hother hfields ↦ ?_, ?_, fun other hother hplain hstatic ↦ ?_⟩
    · rw [List.forall₂_map_right_iff, List.forall₂_same]
      exact fun field _ ↦ field.isOf_descriptor leaves
    · rw [synthesis_of_cls leaves hother, plain_eq_of_filter_eq hfields]
    · exact List.flatMap_congr fun field _ ↦ decl.conflicts_eq leaves field
    · rw [synthesis_of_cls leaves hother, hplain]
      exact List.flatMap_congr fun field _ ↦ conflicts_congr leaves hstatic field
  · rw [synthesis_of_interface leaves hkind]
    exact ⟨rfl, rfl⟩

/-- A static field that is final as well conflicts with the constants of both fields, and the static
method of its name with one builder only. -/
example :
    let static : Modifiers := ⟨true, true⟩
    let fields : List (Field Nat) := [⟨"_a", .named "int", static, [], 0⟩,
      ⟨"a", .named "B", {}, [], 1⟩, ⟨"a", .named "int", {}, [], 2⟩]
    let decl : Declaration Nat := ⟨"A", .cls, [], fields, [⟨"_a", true⟩], 3⟩
    (decl.synthesis {}).errors.map (fun located ↦ (located.location, located.error.message)) =
      [(1, "schema for field `a` already exists: static field `_a`"),
        (1, "schema for field `a` already exists: static function `_a`"),
        (2, "schema for field `a` already exists: static field `_a`")] := by
  decide +kernel

end Declaration

end FieldPaths
