import FieldPaths.Proofs.DecisionTable.Columns

/-!
# The table tells what is generated

A block is read by its lines. The title names the type, and behind it there is a line for each field
whose cells can be told apart, so it shows one row (`DecisionTable.Row.IsShown`). What the row says
is compared with what was made for the field (`DecisionTable.Row.Tells`), so no word is said here
about how the table comes to its rows.
-/

namespace FieldPaths

/-- A block tells what the type of a declaration is. -/
structure TypeSchema.IsToldBy (leaves : LeafTable) (decl : Declaration Span) (type : TypeSchema)
    (block : List String) : Prop where
  title : block.head? = some (type.kind.text ++ " " ++ type.name)
  /-- The descriptors of a class are those made for its fields, in their order. -/
  descriptors : type.kind = .cls → type.descriptors = decl.fields.filterMap (·.made? leaves)
  /-- Behind the title there is a line for each field, in the order of the fields, and it shows a
  row of this field. The rows tell what was made if no two eligible fields have the same name. -/
  rows : type.kind = .cls → decl.fields ≠ [] →
    ∃ (columns : DecisionTable.Columns) (rows : List DecisionTable.Row),
      List.Forall₂ (fun row line ↦ row.IsShown columns line) rows block.tail ∧
      List.Forall₂ (fun field row ↦ row.name = field.name ∧ row.type = field.type.text)
        decl.fields rows ∧
      (((decl.fields.filter (·.isPlain)).map (·.name)).Nodup →
        List.Forall₂ (fun field row ↦ row.Tells leaves field) decl.fields rows)

theorem Declaration.schema_isToldBy {decl : Declaration Span} (hdecl : decl.NamesAre IsSchemaName)
    (leaves : LeafTable) : (decl.schema leaves).IsToldBy leaves decl
      (DecisionTable.blockLines leaves decl (decl.schema leaves).descriptors) where
  title := rfl
  descriptors hkind := descriptors_of_cls hkind leaves
  rows hkind hfields := by
    obtain ⟨columns, hshown⟩ :=
      DecisionTable.exists_isShown_blockLines hdecl leaves hkind hfields
    refine ⟨columns, _, List.forall₂_map_left_iff.mpr hshown, ?_, fun hnames ↦ ?_⟩
    · exact List.forall₂_map_right_iff.mpr (List.forall₂_same.mpr fun field _ ↦ ⟨rfl, rfl⟩)
    · have hmade : (decl.schema leaves).descriptors = decl.fields.filterMap (·.made? leaves) :=
        descriptors_of_cls hkind leaves
      rw [hmade]
      exact List.forall₂_map_right_iff.mpr <| List.forall₂_same.mpr fun field hfield ↦
        DecisionTable.row_tells hnames hfield

/-- **The table tells what is generated.** It has one block for each type, in their order, and the
block of a class has a line for each field of the declaration, in their order. If no two eligible
fields have the same name, the rows that the lines show tell for each field whether there is a
descriptor for it and which one. -/
theorem decisionTables_tell (sources : List Source) (leaves : LeafTable) (selection : Selection) :
    let c := compile sources leaves selection
    List.Forall₂ (fun type block ↦ ∃ decl, c.declaration? type.name = some decl ∧
        type.IsToldBy leaves decl block)
      c.types (lineBlocks c.decisionTables) := by
  intro c
  have htypes : c.types = (c.declarations.filter selection.selects).map (·.schema leaves) := rfl
  rw [lineBlocks_decisionTables, htypes, List.forall₂_map_left_iff, List.forall₂_map_right_iff,
    List.forall₂_same]
  intro decl hselected
  have hdecl := (List.mem_filter.mp hselected).1
  exact ⟨decl, declaration?_of_mem leaves selection hdecl,
    Declaration.schema_isToldBy (namesAre_of_mem_declarations leaves selection hdecl) leaves⟩

/-- The field that is skipped has the name of one with a builder, and an array of a leaf is none. -/
example : (compile [⟨.inline,
      "@Schema class A \x7b final code: int code: int[] note: String \x7d interface B \x7b \x7d"⟩]
      {} (.names ["*"])).decisionTables = "\n".intercalate
    ["class A",
      "  code  int     skip: final",
      "  code  int[]   composite    _code, _code(subpath)",
      "  note  String  leaf String  _note",
      "",
      "interface B",
      "  (not a valid target)"] := by
  decide +kernel

end FieldPaths
