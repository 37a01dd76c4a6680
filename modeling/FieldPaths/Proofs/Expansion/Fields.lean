import FieldPaths.Proofs.Descriptor.Leaves
import FieldPaths.Proofs.Expansion.Reading
import FieldPaths.Proofs.Rust.Options

/-!
# What is defined for fields

A struct that is a class is always expanded: it has no static members, so nothing can be in conflict
with them. Behind it there is a constant for each field that carries nothing but comments, and a
function for each of those that go on.

That all this can be read depends on names. What a struct, a field or a companion is called has been
read as a name before, and it is still one with the mark of a descriptor in front or with the suffix
of a companion behind it.
-/

namespace FieldPaths.Rust

/-! ## Names with and without marks -/

theorem eq_or_eq_raw (name : String) : name = unraw name ∨ name = "r#" ++ unraw name := by
  unfold unraw
  split
  · rename_i more hname
    right
    rw [← String.toList_inj, hname, String.toList_append]
    simp
  · exact .inl rfl

theorem name?_descriptorName {name : String} (h : name ≠ "") :
    name? (descriptorName name) = some (descriptorName name) := by
  have hnew := descriptorName_not_mem h
  rw [List.mem_append, not_or, ← List.contains_iff_mem, ← List.contains_iff_mem] at hnew
  rw [name?, Generated.unraw_descriptorName, isKeyword, if_neg]
  rwa [Bool.or_eq_true, not_or]

theorem name?_subpathParam : name? subpathParam = some subpathParam := by decide

/-- Nothing that Rust has taken ends like a companion. -/
theorem append_paths_not_mem (name : String) : name ++ "Paths" ∉ keywords ++ reservedNames := by
  intro hmem
  have htaken : ∀ taken ∈ keywords ++ reservedNames, ¬ "Paths".toList <:+ taken.toList := by
    decide +kernel
  apply htaken _ hmem
  rw [String.toList_append]
  exact List.suffix_append ..

/-- The mark of the raw form ends before the suffix. -/
theorem unraw_append_paths (name : String) :
    ∃ front, unraw (name ++ "Paths") = front ++ "Paths" := by
  rcases eq_or_eq_raw (name ++ "Paths") with hplain | hraw
  · exact ⟨name, hplain.symm⟩
  · rw [← String.toList_inj, String.toList_append, String.toList_append] at hraw
    rcases hname : name.toList with _ | ⟨c, _ | ⟨d, more⟩⟩
    · rw [hname] at hraw
      exact absurd (List.cons_eq_cons.mp hraw).1 (by decide)
    · rw [hname] at hraw
      exact absurd (List.cons_eq_cons.mp (List.cons_eq_cons.mp hraw).2).1 (by decide)
    · rw [hname] at hraw
      refine ⟨String.ofList more, ?_⟩
      rw [← String.toList_inj, String.toList_append, String.toList_ofList]
      exact (List.cons_eq_cons.mp (List.cons_eq_cons.mp hraw).2).2.symm

theorem isName_append_paths (name : String) : isName (name ++ "Paths") = true := by
  obtain ⟨front, hfront⟩ := unraw_append_paths name
  have hword := append_paths_not_mem name
  have hplain := append_paths_not_mem front
  rw [List.mem_append, not_or, ← List.contains_iff_mem] at hword
  rw [List.mem_append, not_or, ← @List.contains_iff_mem _ _ _ _ reservedNames] at hplain
  rw [isName, hfront, Bool.or_eq_true]
  right
  have hempty : (front ++ "Paths").isEmpty = false := by
    rw [← Bool.not_eq_true, String.isEmpty_iff]
    intro hnil
    have hlength := congrArg (·.toList.length) hnil
    simp at hlength
  rw [hempty, Bool.eq_false_iff.mpr hword.1, Bool.eq_false_iff.mpr hplain.2]
  rfl

theorem StructItem.isName_companionName {attr : List Tree} {options : Options} (item : StructItem)
    (hattr : Options.ofTrees attr = .ok options) : isName (item.companionName options) = true := by
  rw [companionName]
  cases hcompanion : options.companion with
  | none => exact isName_append_paths _
  | some name => exact Options.isName_of_ofTrees hattr name hcompanion

/-! ## Structs that are read -/

/-- The struct that an item is. -/
def Item.struct? : Item → Option StructItem
  | .struct item => some item
  | _ => none

theorem Item.exists_struct_of_any {trees : List Tree} {p : StructItem → Bool}
    (h : ((Item.ofTrees trees).toOption.bind Item.struct?).any p = true) :
    ∃ item, Item.ofTrees trees = .ok (.struct item) ∧ p item = true := by
  rw [Option.any_bind] at h
  obtain ⟨read, hread, hp⟩ := Generated.exists_ok_of_any h
  cases read with
  | struct item => exact ⟨item, hread, hp⟩
  | otherType name => cases hp
  | other => cases hp

/-! ## Fields that are shown -/

namespace FieldItem

/-- Whether a field has a descriptor. -/
def isShown (field : FieldItem) : Bool := (Attr.markers field.attrs).isEmpty

/-- Whether paths go on through a field. -/
def goesOn (leaves : LeafTable) (field : FieldItem) : Bool := !leaves.isLeaf field.type.typeRef

theorem isEligible_lowered (field : FieldItem) : field.lowered.isEligible = field.isShown := by
  rw [Bool.eq_iff_iff, Field.isEligible_iff, isShown, List.isEmpty_iff]
  exact ⟨fun h ↦ h.2.2, fun h ↦ ⟨rfl, rfl, h⟩⟩

/-- A field has a descriptor exactly if all its attributes are comments. -/
theorem isShown_eq {field : FieldItem} (h : ∀ attr ∈ field.attrs, attr.path ≠ []) :
    field.isShown = field.attrs.all (·.isNamed Attr.docName) := by
  rw [Bool.eq_iff_iff, isShown, List.isEmpty_iff, Attr.markers, List.filterMap_eq_nil_iff,
    List.all_eq_true]
  refine ⟨fun hnone attr hattr ↦ ?_, fun hdoc attr hattr ↦ ?_⟩
  · by_contra hdoc
    rw [Bool.not_eq_true] at hdoc
    have hlast := hnone attr (List.mem_filter.mpr ⟨hattr, by rw [hdoc]; rfl⟩)
    exact h attr hattr (List.getLast?_eq_none_iff.mp hlast)
  · obtain ⟨hmem, hmarker⟩ := List.mem_filter.mp hattr
    rw [hdoc attr hmem] at hmarker
    cases hmarker

end FieldItem

/-! ## Structs that are classes -/

namespace StructItem

variable {item : StructItem}

/-- A struct has no static members, so nothing can be in conflict with them. -/
theorem errors_synthesis_of_cls (h : item.declaration.kind = .cls) (options : Options) :
    (item.synthesis options).errors = [] := by
  have hstatic : item.declaration.staticMembers = [] := by
    rw [Declaration.staticMembers, declaration]
    split
    · rfl
    · rw [List.filter_map]
      simp [Function.comp_def, FieldItem.lowered]
  refine Declaration.synthesis_errors_eq_nil_iff.mpr ⟨h, fun field _ ↦ ?_⟩
  simp [Declaration.conflicts_eq_nil_iff, hstatic]

/-- What is expanded is a struct with its descriptors behind it. -/
theorem expansion_of_cls (h : item.declaration.kind = .cls) (options : Options) :
    item.expansion options = .ok (item.withoutTransient.tokens ++
      item.generated options (item.synthesis options).descriptors) := by
  rw [expansion, Expansion.refusal?, errors_synthesis_of_cls h]

theorem fields_declaration_of_cls (h : item.declaration.kind = .cls) :
    item.declaration.fields = item.fields.list.map (·.lowered) := by
  rw [declaration] at h ⊢
  cases hfields : item.fields with
  | tuple tokens =>
    rw [hfields] at h
    cases h
  | named fields hasTrailingComma => rfl
  | unit => rfl

theorem descriptors_of_cls (h : item.declaration.kind = .cls) (options : Options) :
    (item.synthesis options).descriptors = (item.fields.list.filter (·.isShown)).map
      (·.lowered.descriptor ⟨options.leaves⟩) := by
  rw [synthesis, Declaration.synthesis, h]
  change (item.declaration.fields.filter _).map _ = _
  rw [fields_declaration_of_cls h, List.filter_map, List.map_map]
  exact congrArg _ (List.filter_congr fun field _ ↦ field.isEligible_lowered)

theorem constantsOf_synthesis_of_cls (h : item.declaration.kind = .cls) (options : Options) :
    constantsOf (item.synthesis options).descriptors = (item.fields.list.filter (·.isShown)).map
      fun field ↦ ⟨descriptorName (unraw field.name), unraw field.name⟩ := by
  rw [descriptors_of_cls h, constantsOf, List.map_map]
  rfl

theorem buildersOf_synthesis_of_cls (h : item.declaration.kind = .cls) (options : Options) :
    buildersOf (item.synthesis options).descriptors =
      ((item.fields.list.filter (·.isShown)).filter (·.goesOn ⟨options.leaves⟩)).map
        (·.lowered.pathBuilder) := by
  have hbuilders := buildersOf_map_descriptor
    ((item.fields.list.filter (·.isShown)).map (·.lowered)) ⟨options.leaves⟩
  rw [List.map_map, List.filter_map, List.map_map] at hbuilders
  rw [descriptors_of_cls h]
  exact hbuilders

end StructItem

/-! ## What an expansion defines -/

section

variable (fn : PathBuilder → Fn) (owner companion : String) (descriptors : List Descriptor)

theorem constantsIn_definitionsWith :
    constantsIn (definitionsWith fn owner companion descriptors) =
      (constantsOf descriptors).map fun constant ↦ (owner, constant.name, constant.value) := by
  have hcompanion : ∀ builders : List PathBuilder, constantsIn (if builders.isEmpty then []
      else .struct companion :: builders.map fun builder ↦ .function companion (fn builder))
        = [] := by
    intro builders
    split
    · rfl
    · simp [constantsIn]
  rw [definitionsWith, constantsIn, List.filterMap_append, ← constantsIn, ← constantsIn,
    hcompanion, List.append_nil, constantsIn, List.filterMap_map]
  exact List.filterMap_eq_map_iff_forall_eq_some.mpr fun _ _ ↦ rfl

theorem functionsIn_definitionsWith :
    functionsIn (definitionsWith fn owner companion descriptors) =
      (buildersOf descriptors).map fun builder ↦ (companion, fn builder) := by
  have hconstants : functionsIn ((constantsOf descriptors).map fun constant ↦
      Definition.constant owner constant.name constant.value) = [] := by
    simp [functionsIn]
  rw [definitionsWith, functionsIn, List.filterMap_append, ← functionsIn, ← functionsIn, hconstants,
    List.nil_append]
  cases buildersOf descriptors with
  | nil => rfl
  | cons first more => simp [functionsIn]

end

section

variable {attr trees : List Tree} {options : Options} {item : StructItem}
  (hattr : Options.ofTrees attr = .ok options) (hitem : Item.ofTrees trees = .ok (.struct item))
  (hkind : item.declaration.kind = .cls)

include hattr hitem hkind

theorem expand_of_cls : expand attr trees = .ok (item.withoutTransient.tokens ++
    item.generated options (item.synthesis options).descriptors) := by
  rw [← StructItem.expansion_of_cls hkind options, expand, hattr, hitem]
  rfl

/-- What is behind a struct can be read, whatever everything is called. -/
theorem definitions?_expand :
    item.definitions? (item.generated options (item.synthesis options).descriptors)
      = some (definitionsWith expandedFn (unraw item.name) (unraw (item.companionName options))
          (item.synthesis options).descriptors) := by
  have hnames : ∀ field ∈ item.fields.list, name? (descriptorName (unraw field.name))
      = some (descriptorName (unraw field.name)) := fun field hfield ↦
    name?_descriptorName (StructItem.hasNames_of_ofTrees hitem field hfield).1
  refine StructItem.definitions?_generated (StructItem.isVisibility_of_ofTrees hitem)
    (item.isName_companionName hattr) ?_ ?_
  · rw [StructItem.constantsOf_synthesis_of_cls hkind, List.forall_mem_map]
    exact fun field hfield ↦ hnames field (List.mem_filter.mp hfield).1
  · rw [StructItem.buildersOf_synthesis_of_cls hkind, List.forall_mem_map]
    intro field hfield
    have hshown := (List.mem_filter.mp hfield).1
    exact ⟨hnames field (List.mem_filter.mp hshown).1, name?_subpathParam⟩

/-- A constant is defined for every field that carries nothing but comments, and a function for
every one of these that goes on. -/
theorem exists_definitions_of_cls :
    let shown := item.fields.list.filter (·.attrs.all (·.isNamed "doc"))
    ∃ generated defs, expand attr trees = .ok (item.withoutTransient.tokens ++ generated) ∧
      item.definitions? generated = some defs ∧
      constantsIn defs = shown.map (fun field ↦
        (unraw item.name, "_" ++ unraw field.name, unraw field.name)) ∧
      (functionsIn defs).map (fun (owner, fn) ↦ (owner, fn.name)) =
        (shown.filter (·.goesOn ⟨options.leaves⟩)).map fun field ↦
          (unraw (item.companionName options), "_" ++ unraw field.name) := by
  intro shown
  have hshown : item.fields.list.filter (·.isShown) = shown :=
    List.filter_congr fun field hfield ↦
      FieldItem.isShown_eq (StructItem.hasNames_of_ofTrees hitem field hfield).2
  refine ⟨_, _, expand_of_cls hattr hitem hkind, definitions?_expand hattr hitem hkind, ?_, ?_⟩
  · rw [constantsIn_definitionsWith, StructItem.constantsOf_synthesis_of_cls hkind, hshown,
      List.map_map]
    rfl
  · rw [functionsIn_definitionsWith, StructItem.buildersOf_synthesis_of_cls hkind, hshown,
      List.map_map, List.map_map]
    rfl

end

end FieldPaths.Rust
