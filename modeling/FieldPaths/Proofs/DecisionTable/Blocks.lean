import FieldPaths.Proofs.Compilation.Selected
import FieldPaths.Proofs.DecisionTable.Rows
import FieldPaths.Proofs.Names

/-!
# The blocks of the table

The table is one text for all types, and its parts are known by their line ends: an empty line
stands between two blocks, and every row is a line of its own. So that the blocks can be told apart,
no cell may have a line end in it and no row may be blank. Names have no line ends as they are
spelled by tokens, and every row has a decision that can be seen.

Every type has its block then. What its lines show is a matter of the columns, and what they say
about the fields one of the rows.
-/

namespace FieldPaths

theorem TypeRef.NamesAre.fitsLine_text {ty : TypeRef} (h : ty.NamesAre IsSchemaName) :
    FitsLine ty.text := by
  intro hmem
  rcases TypeRef.mem_text hmem with hmark | ⟨part, hpart, segment, hsegment, hmem⟩
  · revert hmark
    decide
  · exact (h part hpart segment hsegment).not_mem rfl hmem

namespace DecisionTable

/-! ## Cells -/

theorem fitsLine_pad {cell : String} (h : FitsLine cell) (width : Nat) :
    FitsLine (pad width cell) := by
  rw [pad, fitsLine_append]
  refine ⟨h, ?_⟩
  rw [FitsLine, String.toList_ofList]
  intro hmem
  cases List.eq_of_mem_replicate hmem

/-- The row is a line that can be seen. -/
structure Row.IsLine (row : Row) : Prop where
  name : FitsLine row.name
  type : FitsLine row.type
  decision : FitsLine row.decision
  members : FitsLine row.members
  isSeen : isBlankText row.decision = false

theorem forall_mem_lines {rows : List Row} (h : ∀ row ∈ rows, row.IsLine) :
    ∀ line ∈ lines rows, line ≠ "" ∧ FitsLine line := by
  intro line hline
  obtain ⟨row, hrow, rfl⟩ := List.mem_map.mp hline
  obtain ⟨hname, htype, hdecision, hmembers, hseen⟩ := h row hrow
  constructor
  · intro hempty
    obtain ⟨c, hc, hblank⟩ := List.all_eq_false.mp hseen
    rw [Bool.not_eq_true] at hblank
    refine trimBack_ne_nil (?_ : c ∈ _) hblank (String.ofList_eq_empty_iff.mp hempty)
    simp [pad, hc]
  · rw [FitsLine, String.toList_ofList]
    refine mt mem_of_mem_trimBack ?_
    have hblanks : FitsLine "  " := by decide
    change FitsLine _
    simp [hblanks, fitsLine_pad, hname, htype, hdecision, hmembers]

/-! ## The rows of a declaration -/

section

variable {leaves : LeafTable} {decl : Declaration Span} {field : Field Span}

theorem decision_isLine :
    FitsLine (decision leaves field) ∧ isBlankText (decision leaves field) = false := by
  cases hreason : field.exclusion with
  | some reason =>
    rw [decision_of_exclusion hreason]
    cases reason <;> decide +kernel
  | none =>
    have hall : ∀ verdict ∈ verdicts, FitsLine verdict ∧ isBlankText verdict = false := by
      decide +kernel
    exact hall _ (decision_mem_verdicts hreason)

theorem fitsLine_membersText (h : FitsLine field.name) :
    FitsLine (membersText (field.descriptor leaves)) := by
  have hname : FitsLine (descriptorName field.name) := fitsLine_append.mpr ⟨by decide, h⟩
  rw [membersText, Field.descriptor]
  by_cases hleaf : leaves.isLeaf field.type = true
  · simpa [hleaf] using hname
  · have hmarks : FitsLine ", " ∧ FitsLine "(" ∧ FitsLine subpathParam ∧ FitsLine ")" := by decide
    simp [hleaf, hname, hmarks]

theorem members_cases (descriptors : List Descriptor) (field : Field Span) :
    members descriptors field = "" ∨
      ∃ descriptor ∈ descriptors, members descriptors field = membersText descriptor := by
  rw [members]
  cases field.exclusion with
  | some reason => exact .inl rfl
  | none =>
    dsimp only
    cases hfind : descriptors.find? (·.field == field.name) with
    | none => exact .inl rfl
    | some descriptor => exact .inr ⟨descriptor, List.mem_of_find?_eq_some hfind, rfl⟩

theorem fitsLine_members {descriptors : List Descriptor}
    (h : ∀ descriptor ∈ descriptors, FitsLine (membersText descriptor)) :
    FitsLine (members descriptors field) := by
  rcases members_cases descriptors field with hnone | ⟨descriptor, hdescriptor, hsome⟩
  · rw [hnone]
    exact List.not_mem_nil
  · rw [hsome]
    exact h descriptor hdescriptor

theorem row_isLine (hfield : field.NamesAre IsSchemaName) {descriptors : List Descriptor}
    (h : ∀ descriptor ∈ descriptors, FitsLine (membersText descriptor)) :
    (row leaves descriptors field).IsLine where
  name := hfield.name.not_mem rfl
  type := hfield.type.fitsLine_text
  decision := decision_isLine.1
  members := fitsLine_members h
  isSeen := decision_isLine.2

theorem fitsLine_membersText_of_mem (hdecl : decl.NamesAre IsSchemaName) :
    ∀ descriptor ∈ (decl.synthesis leaves).descriptors, FitsLine (membersText descriptor) := by
  intro descriptor hdescriptor
  obtain ⟨field, hfield, rfl⟩ := Declaration.exists_field_of_mem_synthesis hdescriptor
  exact fitsLine_membersText ((hdecl.fields field hfield).name.not_mem rfl)

/-! ## Blocks -/

/-- The lines of a block: the title, and the rows or why there are none. -/
def blockLines (leaves : LeafTable) (decl : Declaration Span) (descriptors : List Descriptor) :
    List String :=
  (decl.kind.text ++ " " ++ decl.name) :: match decl.kind with
    | .interface => ["  (not a valid target)"]
    | .cls =>
      if decl.fields.isEmpty then ["  (no fields)"]
      else lines (decl.fields.map (row leaves descriptors))

theorem block_eq_intercalate (leaves : LeafTable) (decl : Declaration Span)
    (descriptors : List Descriptor) :
    block leaves decl descriptors = "\n".intercalate (blockLines leaves decl descriptors) := rfl

/-- Behind the title of a class there are the lines of its fields. -/
theorem tail_blockLines (hkind : decl.kind = .cls) (hfields : decl.fields ≠ [])
    (descriptors : List Descriptor) :
    (blockLines leaves decl descriptors).tail
      = lines (decl.fields.map (row leaves descriptors)) := by
  rw [blockLines, hkind, List.tail_cons]
  exact if_neg (mt List.isEmpty_iff.mp hfields)

theorem forall_mem_blockLines (hdecl : decl.NamesAre IsSchemaName) :
    ∀ line ∈ blockLines leaves decl (decl.synthesis leaves).descriptors,
      line ≠ "" ∧ FitsLine line := by
  have htitle : decl.kind.text ++ " " ++ decl.name ≠ "" := by
    simp
  have hfits : FitsLine (decl.kind.text ++ " " ++ decl.name) := by
    have hkind : FitsLine (decl.kind.text ++ " ") := by cases decl.kind <;> decide
    exact fitsLine_append.mpr ⟨hkind, hdecl.name.not_mem rfl⟩
  refine List.forall_mem_cons.mpr ⟨⟨htitle, hfits⟩, ?_⟩
  cases decl.kind with
  | interface => exact List.forall_mem_singleton.mpr (by decide)
  | cls =>
    dsimp only
    split
    · exact List.forall_mem_singleton.mpr (by decide)
    · refine forall_mem_lines fun row hrow ↦ ?_
      obtain ⟨field, hfield, rfl⟩ := List.mem_map.mp hrow
      exact row_isLine (hdecl.fields field hfield) (fitsLine_membersText_of_mem hdecl)

end

end DecisionTable

/-! ## The table of a compilation -/

/-- The blocks of the table are those of the selected declarations. -/
theorem lineBlocks_decisionTables (sources : List Source) (leaves : LeafTable)
    (selection : Selection) :
    let c := compile sources leaves selection
    lineBlocks c.decisionTables = (c.declarations.filter selection.selects).map fun decl ↦
      DecisionTable.blockLines leaves decl (decl.schema leaves).descriptors := by
  intro c
  have hlines : ∀ block ∈ (c.declarations.filter selection.selects).map fun decl ↦
      DecisionTable.blockLines leaves decl (decl.schema leaves).descriptors,
      block ≠ [] ∧ ∀ line ∈ block, line ≠ "" ∧ FitsLine line := by
    intro block hblock
    obtain ⟨decl, hdecl, rfl⟩ := List.mem_map.mp hblock
    exact ⟨List.cons_ne_nil _ _, DecisionTable.forall_mem_blockLines
      (namesAre_of_mem_declarations leaves selection (List.mem_filter.mp hdecl).1)⟩
  have htext : c.decisionTables = "\n\n".intercalate
      (((c.declarations.filter selection.selects).map fun decl ↦
        DecisionTable.blockLines leaves decl (decl.schema leaves).descriptors).map
          "\n".intercalate) := by
    rw [decisionTables_compile, List.map_map]
    exact congrArg _ (List.map_congr_left fun decl _ ↦ DecisionTable.block_eq_intercalate ..)
  rw [htext, lineBlocks_intercalate (fun block hblock ↦ (hlines block hblock).1)
    fun block hblock ↦ (hlines block hblock).2]

end FieldPaths
