import FieldPaths.DecisionTable
import FieldPaths.Proofs.Compilation.Kept
import FieldPaths.Proofs.Descriptor.Leaves

/-!
# What the table says about a field

The table is not told how descriptors came about. It decides anew which fields have one and which
types are leaves, and it looks for the descriptor of a field by the field's name. So there are three
places where it could say something else than what was made.

The first two are the same decisions twice: a type that the closed list has a name for is a leaf, so
the names of leaves never stand beside a builder. The third is a matter of names. As long as no two
eligible fields have the same one, what is found is the field's own descriptor. The other fields may
have any names, since nothing is looked for where nothing was made.
-/

namespace FieldPaths

/-! ## What is made for a field -/

section

variable {L : Type}

/-- The descriptor that is made for a field of a class, if there is one. -/
def Field.made? (leaves : LeafTable) (field : Field L) : Option Descriptor :=
  if field.isPlain then some (field.descriptor leaves) else none

theorem Field.exclusion_eq_none_iff {field : Field L} :
    field.exclusion = none ↔ field.isPlain = true := by
  rw [← isEligible_eq_isPlain, isEligible, Option.isNone_iff_eq_none]

/-- There is a descriptor for a field unless there is a reason against it. -/
theorem Field.made?_cases (leaves : LeafTable) (field : Field L) :
    (field.isPlain = true ∧ field.exclusion = none ∧
        field.made? leaves = some (field.descriptor leaves)) ∨
      ((∃ reason, field.exclusion = some reason) ∧ field.made? leaves = none) := by
  by_cases hplain : field.isPlain = true
  · exact .inl ⟨hplain, exclusion_eq_none_iff.mpr hplain, if_pos hplain⟩
  · have hreason : field.exclusion ≠ none := mt exclusion_eq_none_iff.mp hplain
    exact .inr ⟨Option.ne_none_iff_exists'.mp hreason, if_neg hplain⟩

theorem filterMap_made? (fields : List (Field L)) (leaves : LeafTable) :
    fields.filterMap (·.made? leaves)
      = (fields.filter (·.isPlain)).map (·.descriptor leaves) := by
  rw [← List.filterMap_eq_map', List.filterMap_filter]
  rfl

theorem Declaration.descriptors_of_cls {decl : Declaration L} (hkind : decl.kind = .cls)
    (leaves : LeafTable) :
    (decl.synthesis leaves).descriptors = decl.fields.filterMap (·.made? leaves) := by
  rw [synthesis_of_cls leaves hkind, filterMap_made?]

/-- Among the descriptors made, the first with the name of an eligible field is its own. -/
theorem find?_filterMap_made? {fields : List (Field L)} {leaves : LeafTable}
    (hnames : ((fields.filter (·.isPlain)).map (·.name)).Nodup) {field : Field L}
    (hfield : field ∈ fields) (hplain : field.isPlain = true) :
    (fields.filterMap (·.made? leaves)).find? (·.field == field.name)
      = some (field.descriptor leaves) := by
  have hfind : (fields.filter (·.isPlain)).find? (·.name == field.name) = some field :=
    find?_of_nodup hnames (List.mem_filter.mpr ⟨hfield, hplain⟩)
  rw [filterMap_made?, List.find?_map]
  exact congrArg (Option.map _) hfind

end

/-! ## Leaves with and without a name -/

/-- A type that the closed list has a name for is a leaf with every table. -/
theorem LeafTable.isLeaf_of_classify {ty : TypeRef} {leaf : LeafType} (h : classify ty = some leaf)
    (leaves : LeafTable) : leaves.isLeaf ty = true := by
  rw [classify] at h
  by_cases harray : ty.isArray = true
  · rw [if_pos harray] at h
    cases h
  · rw [if_neg harray] at h
    rw [isLeaf_iff, h]
    exact ⟨Bool.eq_false_iff.mpr harray, .inl rfl⟩

namespace DecisionTable

variable {leaves : LeafTable} {field : Field Span}

/-! ## Decisions -/

/-- The decisions about fields that are not skipped. -/
def verdicts : List String :=
  "composite" :: "leaf" :: LeafType.all.map fun leaf ↦ "leaf " ++ leaf.text

theorem decision_of_exclusion {reason : Exclusion} (h : field.exclusion = some reason) :
    decision leaves field = "skip: " ++ reason.text := by
  rw [decision, h]

theorem decision_mem_verdicts (h : field.exclusion = none) : decision leaves field ∈ verdicts := by
  rw [decision, h]
  dsimp only
  cases hclass : LeafTable.classify field.type with
  | some leaf =>
    have hleaf : leaf ∈ LeafType.all := by cases leaf <;> decide
    exact List.mem_cons_of_mem _ (List.mem_cons_of_mem _ (List.mem_map_of_mem hleaf))
  | none =>
    by_cases hleaf : leaves.isLeaf field.type = true
    · simp [hleaf, verdicts]
    · simp [hleaf, verdicts]

/-- The table speaks of a composite exactly where the type is no leaf. -/
theorem decision_eq_composite_iff_isLeaf (h : field.exclusion = none) :
    decision leaves field = "composite" ↔ leaves.isLeaf field.type = false := by
  rw [decision, h]
  dsimp only
  cases hclass : LeafTable.classify field.type with
  | some leaf =>
    rw [LeafTable.isLeaf_of_classify hclass leaves]
    refine iff_of_false ?_ Bool.noConfusion
    dsimp only
    cases leaf <;> decide
  | none =>
    by_cases hleaf : leaves.isLeaf field.type = true
    · simp [hleaf]
    · simp [hleaf]

/-- The reason for which a field is skipped stands only where one is skipped. -/
theorem not_skip_of_mem_verdicts {verdict : String} (h : verdict ∈ verdicts) (reason : String) :
    verdict ≠ "skip: " ++ reason := by
  have hall : ∀ verdict ∈ verdicts, verdict.toList.head? ≠ some 's' := by decide +kernel
  rintro rfl
  refine hall _ h ?_
  rw [String.toList_append]
  rfl

/-- A field is skipped exactly if there is no descriptor for it. -/
theorem decision_isSkip_iff :
    (∃ reason, decision leaves field = "skip: " ++ reason) ↔ field.made? leaves = none := by
  rcases field.made?_cases leaves with ⟨-, hnone, hmade⟩ | ⟨⟨reason, hreason⟩, hmade⟩
  · rw [hmade]
    refine iff_of_false ?_ (Option.some_ne_none _)
    rintro ⟨reason, hskip⟩
    exact not_skip_of_mem_verdicts (decision_mem_verdicts hnone) reason hskip
  · exact iff_of_true ⟨reason.text, decision_of_exclusion hreason⟩ hmade

/-- A field is a composite exactly if there is a descriptor with a builder for it. -/
theorem decision_eq_composite_iff : decision leaves field = "composite" ↔
    ∃ descriptor ∈ field.made? leaves, descriptor.isComposite = true := by
  rcases field.made?_cases leaves with ⟨-, hnone, hmade⟩ | ⟨⟨reason, hreason⟩, hmade⟩
  · rw [decision_eq_composite_iff_isLeaf hnone, hmade, ← Bool.not_eq_true',
      ← field.isComposite_descriptor]
    simp
  · rw [hmade, decision_of_exclusion hreason]
    refine iff_of_false ?_ nofun
    cases reason <;> decide

/-! ## Members -/

theorem members_of_made?_eq_none (h : field.made? leaves = none) (descriptors : List Descriptor) :
    members descriptors field = "" := by
  rcases field.made?_cases leaves with ⟨-, -, hmade⟩ | ⟨⟨reason, hreason⟩, -⟩
  · rw [hmade] at h
    cases h
  · rw [members, hreason]

/-- The members are those of the descriptor of this very field if no two eligible fields have the
same name. -/
theorem members_of_mem_made? {fields : List (Field Span)}
    (hnames : ((fields.filter (·.isPlain)).map (·.name)).Nodup) (hfield : field ∈ fields)
    {descriptor : Descriptor} (h : descriptor ∈ field.made? leaves) :
    members (fields.filterMap (·.made? leaves)) field = membersText descriptor := by
  rcases field.made?_cases leaves with ⟨hplain, hnone, hmade⟩ | ⟨-, hmade⟩
  · rw [hmade] at h
    obtain rfl := Option.some.inj h
    rw [members, hnone, find?_filterMap_made? hnames hfield hplain]
  · rw [hmade] at h
    cases h

/-! ## Rows -/

/-- The row tells what is made for the field. -/
structure Row.Tells (leaves : LeafTable) (field : Field Span) (row : Row) : Prop where
  name : row.name = field.name
  type : row.type = field.type.text
  /-- A field is skipped exactly if there is no descriptor for it. -/
  skip_iff : (∃ reason, row.decision = "skip: " ++ reason) ↔ field.made? leaves = none
  /-- The reason is the first that applies. -/
  final : field.modifiers.isFinal = true → row.decision = "skip: final"
  static : field.modifiers.isFinal = false → field.modifiers.isStatic = true →
    row.decision = "skip: static"
  annotated : field.modifiers.isFinal = false → field.modifiers.isStatic = false →
    field.attributes ≠ [] → row.decision = "skip: annotated"
  no_members : field.made? leaves = none → row.members = ""
  /-- A composite is a field with a builder. -/
  composite_iff : row.decision = "composite" ↔
    ∃ descriptor ∈ field.made? leaves, descriptor.isComposite = true
  /-- The members are those of the descriptor that is made for this very field. -/
  constant_only : ∀ descriptor ∈ field.made? leaves, descriptor.builder = none →
    row.members = descriptor.constant.name
  constant_and_builder : ∀ descriptor ∈ field.made? leaves, ∀ builder ∈ descriptor.builder,
    row.members = descriptor.constant.name ++ ", " ++ builder.name ++ "(" ++ builder.param ++ ")"

/-- The rows of a class tell what is made for its fields if the eligible ones differ in name. -/
theorem row_tells {fields : List (Field Span)}
    (hnames : ((fields.filter (·.isPlain)).map (·.name)).Nodup) (hfield : field ∈ fields) :
    (row leaves (fields.filterMap (·.made? leaves)) field).Tells leaves field where
  name := rfl
  type := rfl
  skip_iff := decision_isSkip_iff
  final hfinal := decision_of_exclusion (if_pos hfinal)
  static hfinal hstatic := by
    have hreason : field.exclusion = some .static := by simp [Field.exclusion, hfinal, hstatic]
    exact decision_of_exclusion hreason
  annotated hfinal hstatic hattributes := by
    have hreason : field.exclusion = some .annotated := by
      simp [Field.exclusion, hfinal, hstatic, hattributes]
    exact decision_of_exclusion hreason
  no_members hnone := members_of_made?_eq_none hnone _
  composite_iff := decision_eq_composite_iff
  constant_only descriptor hmade hnone := by
    refine (members_of_mem_made? hnames hfield hmade).trans ?_
    rw [membersText, hnone]
  constant_and_builder descriptor hmade builder hbuilder := by
    refine (members_of_mem_made? hnames hfield hmade).trans ?_
    rw [membersText, Option.mem_def.mp hbuilder]

end DecisionTable

end FieldPaths
