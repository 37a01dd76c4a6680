import FieldPaths.Proofs.Descriptor.Leaves
import FieldPaths.Proofs.Generated.Meaning
import FieldPaths.Proofs.Rust.Name
import FieldPaths.Proofs.Rust.OtherTypes
import FieldPaths.Rust.Scan

/-!
# What a schema calls a type

The name that a schema has for a type is that of what the type wraps. Wrappers are looked through,
except that arrays and slices are counted, as far as dimensions are. What is wrapped is a path or
not: a path keeps its names and the types among its last arguments, which are called in the same
way, and anything else keeps its text.

A text is no name of a leaf, because names of leaves are identifiers
(`Tree.NoWord.not_isIdentText`). So only paths are leaves, however a type that is none is written.
-/

namespace FieldPaths.Rust

/-! ## Wrappers -/

/-- The number of arrays and slices among the wrappers. -/
def Ty.dimensions : Ty → Nat
  | .array elem _ | .slice elem => elem.dimensions + 1
  | .reference _ elem | .paren elem | .group elem => elem.dimensions
  | _ => 0

/-- The type that an argument is, unless it is a lifetime, a constant or a binding. -/
def Arg.type? : Arg → Option Ty
  | .type ty => some ty
  | _ => none

/-- The types among the arguments of a segment, in order. -/
def Segment.types (segment : Segment) : List Ty :=
  match segment.args with
  | .none => []
  | .angle _ args _ => args.filterMap Arg.type?

theorem Ty.core_cases : ∀ ty : Ty, (∃ lead qualifier last, ty.core = .path lead qualifier last) ∨
    ∃ tokens, ty.core = .other tokens
  | .path lead qualifier last => .inl ⟨lead, qualifier, last, rfl⟩
  | .other tokens => .inr ⟨tokens, rfl⟩
  | .reference _ elem | .paren elem | .group elem | .array elem _ | .slice elem => elem.core_cases

theorem argTypeRefs_eq (args : List Arg) :
    argTypeRefs args = (args.filterMap Arg.type?).map Ty.typeRef := by
  induction args with
  | nil => rfl
  | cons arg more ih =>
    cases arg with
    | type ty => exact congrArg (ty.typeRef :: ·) ih
    | lifetime name => exact ih
    | other tokens => exact ih

theorem Segment.typeArgs_eq (segment : Segment) :
    segment.typeArgs = segment.types.map Ty.typeRef := by
  obtain ⟨name, args⟩ := segment
  cases args with
  | none => rfl
  | angle hasColons args hasTrailingComma => exact argTypeRefs_eq args

theorem arrayOf_eq (ty : TypeRef) (n : Nat) :
    ({ ty with arrayDepth := min n 255 } : TypeRef).arrayOf
      = { ty with arrayDepth := min (n + 1) 255 } := by
  rw [TypeRef.arrayOf, TypeRef.maxArrayDepth, TypeRef.mk.injEq]
  refine ⟨rfl, rfl, rfl, ?_⟩
  dsimp only
  omega

/-- Wrappers change nothing but the number of dimensions. -/
theorem Ty.typeRef_eq_core : ∀ ty : Ty,
    ty.typeRef = { ty.core.typeRef with arrayDepth := min ty.dimensions 255 }
  | .path .. | .other _ => rfl
  | .reference _ elem | .paren elem | .group elem => elem.typeRef_eq_core
  | .array elem _ | .slice elem => by
    rw [typeRef, elem.typeRef_eq_core]
    exact arrayOf_eq _ _

/-! ## Leaves -/

theorem IsIdentText.of_isIdentifier {name : String} (h : isIdentifier name = true) :
    IsIdentText name := by
  obtain ⟨⟨c, more, hname, hstart, hmore⟩, hreserved⟩ := isIdentifier_iff.mp h
  refine ⟨c, more, .inl hname, hstart.imp_right fun h ↦ ?_, fun d hd ↦ ?_, ?_⟩
  · rw [isWordStart, h, Bool.true_or]
  · rw [isWordContinue]
    rcases hmore d hd with rfl | h
    · rfl
    · rw [h, Bool.true_or, Bool.true_or]
  · intro hunderscore
    have hname : name.toList = "_".toList := hname.trans hunderscore
    exact hreserved (String.toList_inj.mp hname ▸ List.mem_cons_self)

theorem ofName?_isSome_iff {name : String} : (LeafType.ofName? name).isSome = true ↔
    ∃ leaf : LeafType, name ∈ leaf.spellings := by
  rw [LeafType.ofName?, List.find?_isSome]
  constructor
  · rintro ⟨leaf, -, h⟩
    exact ⟨leaf, by simpa using h⟩
  · rintro ⟨leaf, h⟩
    exact ⟨leaf, by cases leaf <;> decide, by simpa using h⟩

theorem isIdentText_of_mem_spellings {leaf : LeafType} {name : String} (h : name ∈ leaf.spellings) :
    IsIdentText name := by
  have hall : ∀ name ∈ leaf.spellings, isIdentifier name = true := by
    cases leaf <;> decide +kernel
  exact .of_isIdentifier (hall name h)

/-- The type is what is behind the wrappers of one that is read, anywhere that a type may stand. -/
def Ty.IsReadCore (core : Ty) : Prop :=
  ∃ ty : Ty, ty.core = core ∧
    ((∃ hasPlus steps input rest, (Reader.type hasPlus steps).run input = .ok (ty, rest)) ∨
      ∃ field : FieldItem, field.type = ty ∧
        ∃ input rest, Reader.fieldItem.run input = .ok (field, rest))

theorem Ty.IsReadCore.noWord {tokens : List Tree} (h : IsReadCore (.other tokens)) :
    Tree.NoWord tokens := by
  obtain ⟨ty, hcore, ⟨hasPlus, steps, input, rest, hrun⟩ | ⟨field, rfl, input, rest, hrun⟩⟩ := h
  · exact Reader.type_gives hasPlus steps _ _ _ hrun tokens hcore
  · exact Reader.fieldItem_gives _ _ _ hrun tokens hcore

/-- **What a type is called.** Behind any nesting of references, parentheses, invisible groups,
arrays and slices there is a path or a type of another form. A path gives its names without their
marks and the types among its last arguments, and another form gives its text; the arrays and slices
are counted up to 255. Where the names that a table adds are identifiers, a type is a leaf exactly
if there is no array or slice, and a path behind the others whose last name is that of a leaf. -/
theorem Ty.typeRef_tells (ty : Ty) :
    ty.typeRef = (match ty.core with
      | .path _ qualifier last =>
        { qualifier := qualifier.map (unraw ·.name)
          name := unraw last.name
          args := last.types.map Ty.typeRef
          arrayDepth := min ty.dimensions 255 }
      | core => { TypeRef.named core.text with arrayDepth := min ty.dimensions 255 }) ∧
    ∀ leaves : LeafTable, (∀ name ∈ leaves.added, IsIdentText name) → ty.core.IsReadCore →
      (leaves.isLeaf ty.typeRef = true ↔ ty.dimensions = 0 ∧
        ∃ lead qualifier last, ty.core = .path lead qualifier last ∧
          ((∃ leaf : LeafType, unraw last.name ∈ leaf.spellings) ∨
            unraw last.name ∈ leaves.added)) := by
  have harray : ty.typeRef.isArray = false ↔ ty.dimensions = 0 := by
    rw [ty.typeRef_eq_core, TypeRef.isArray, decide_eq_false_iff_not]
    dsimp only
    omega
  have htypeRef := ty.typeRef_eq_core
  rcases ty.core_cases with ⟨lead, qualifier, last, hcore⟩ | ⟨tokens, hcore⟩
  · rw [hcore, typeRef, last.typeArgs_eq] at htypeRef
    rw [hcore]
    refine ⟨htypeRef, fun leaves _ _ ↦ ?_⟩
    rw [LeafTable.isLeaf_iff, harray, ofName?_isSome_iff, htypeRef]
    refine and_congr_right fun _ ↦ ⟨fun h ↦ ⟨lead, qualifier, last, rfl, h⟩, ?_⟩
    rintro ⟨_, _, _, heq, h⟩
    cases heq
    exact h
  · rw [hcore, typeRef] at htypeRef
    rw [hcore]
    refine ⟨htypeRef, fun leaves hadded hread ↦ ?_⟩
    have htext : ¬ IsIdentText (Tree.textOf tokens) := hread.noWord.not_isIdentText
    rw [LeafTable.isLeaf_iff, harray, ofName?_isSome_iff, htypeRef]
    refine and_congr_right fun _ ↦ iff_of_false ?_ nofun
    rintro (⟨leaf, hleaf⟩ | hname)
    · exact htext (isIdentText_of_mem_spellings hleaf)
    · exact htext (hadded _ hname)

theorem Reader.run_steps_bind {α : Type} (next : Nat → Reader α) (input : Input) :
    (steps >>= next).run input = (next (8 * (Tree.sizeOf input.trees + 2))).run input := rfl

theorem Ty.isReadCore_of_ofTrees {trees : List Tree} {ty : Ty} (h : Ty.ofTrees trees = .ok ty) :
    ty.core.IsReadCore := by
  rw [ofTrees, Reader.readAll, Reader.anyType, Reader.run_steps_bind] at h
  split at h
  · cases h
  · rename_i hrun
    split at h
    · cases h
    · cases h
      exact ⟨ty, rfl, .inl ⟨true, _, _, _, hrun⟩⟩

/-- With the same table a path behind wrappers is a leaf, and a trait object is none although the
table has both of its words. -/
theorem Ty.typeRef_tells_display :
    let leaves : LeafTable := ⟨["dyn", "Display"]⟩
    ∃ path object : Ty,
      Ty.ofTrees ((Tree.read? "&'a (fmt::r#Display)").getD []) = .ok path ∧
      Ty.ofTrees ((Tree.read? "&(dyn Display)").getD []) = .ok object ∧
      leaves.isLeaf path.typeRef = true ∧ leaves.isLeaf object.typeRef = false := by
  intro leaves
  have hadded : ∀ name ∈ leaves.added, IsIdentText name := by
    have hall : ∀ name ∈ leaves.added, isIdentifier name = true := by decide +kernel
    exact fun name hname ↦ .of_isIdentifier (hall name hname)
  have hpath : (Ty.ofTrees ((Tree.read? "&'a (fmt::r#Display)").getD [])).toOption.any (fun ty ↦
      decide (ty.dimensions = 0) && match ty.core with
        | .path _ _ last => unraw last.name == "Display"
        | _ => false) = true := by decide +kernel
  have hobject : (Ty.ofTrees ((Tree.read? "&(dyn Display)").getD [])).toOption.any (fun ty ↦
      match ty.core with
        | .path .. => false
        | _ => true) = true := by decide +kernel
  obtain ⟨path, hpathRead, hpath⟩ := Generated.exists_ok_of_any hpath
  obtain ⟨object, hobjectRead, hobject⟩ := Generated.exists_ok_of_any hobject
  refine ⟨path, object, hpathRead, hobjectRead, ?_, ?_⟩
  · rw [Bool.and_eq_true, decide_eq_true_iff] at hpath
    obtain ⟨hnone, hname⟩ := hpath
    refine (path.typeRef_tells.2 leaves hadded (isReadCore_of_ofTrees hpathRead)).mpr ⟨hnone, ?_⟩
    split at hname
    · rename_i hcore
      exact ⟨_, _, _, hcore, .inr (by rw [beq_iff_eq.mp hname]; decide)⟩
    · cases hname
  · rw [← Bool.not_eq_true,
      object.typeRef_tells.2 leaves hadded (isReadCore_of_ofTrees hobjectRead)]
    rintro ⟨-, lead, qualifier, last, hcore, -⟩
    rw [hcore] at hobject
    cases hobject

end FieldPaths.Rust
