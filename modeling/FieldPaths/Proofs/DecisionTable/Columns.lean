import FieldPaths.Proofs.DecisionTable.Blocks
import FieldPaths.Proofs.Rust.Layout

/-!
# The columns of the table

A row is written by itself but for the widths of the columns, and the widths are those of all rows.
They are measured in bytes, and a cell is filled up by its characters. A character takes a byte at
least, so no cell is wider than its column, and that is all that it takes for the cells after it to
start in one place.

The end of a row is another matter, since it is cut off behind the last character that is not blank,
whatever cell this is in. No cell may lose anything there. The last cell with something in it is the
members, which end with a name or a bracket, or the decision where there are none, and decisions are
known one by one.
-/

namespace FieldPaths

/-! ## Texts that end with a character -/

/-- The text has a last character, which is not blank. -/
def EndsSeen (text : String) : Prop := ∃ c ∈ text.toList.getLast?, isBlank c = false

instance (text : String) : Decidable (EndsSeen text) :=
  decidable_of_iff (text.toList.getLast?.any (!isBlank ·) = true) <| by
    simp [EndsSeen, Option.any_eq_true]

theorem EndsSeen.ne_empty {text : String} (h : EndsSeen text) : text ≠ "" := by
  rintro rfl
  obtain ⟨c, hc, -⟩ := h
  cases hc

theorem EndsSeen.append {text : String} (h : EndsSeen text) (front : String) :
    EndsSeen (front ++ text) := by
  obtain ⟨c, hc, hseen⟩ := h
  refine ⟨c, ?_, hseen⟩
  rw [String.toList_append, List.getLast?_append, Option.mem_def.mp hc, Option.some_or]
  rfl

theorem EndsSeen.join {text : String} (h : EndsSeen text) (front : List String) :
    EndsSeen (String.join (front ++ [text])) := by
  rw [String.join_append, String.join_cons, String.join_nil, String.append_empty]
  exact h.append _

theorem isBlank_of_isNameContinue {c : Char} (h : Token.isNameContinue c = true) :
    isBlank c = false := by
  -- names have characters of ASCII only, and no blank is among those behind the space
  have hrange : 0x20 < c.toNat ∧ c.toNat < 0x80 := by
    rcases Token.isNameContinue_iff.mp h with hword | rfl | rfl
    · rcases Bool.or_eq_true_iff.mp hword with halpha | hdigit
      · have := Rust.isAlpha_range halpha
        omega
      · have := Rust.isDigit_range hdigit
        omega
    · decide
    · decide
  simp only [isBlank, Bool.or_eq_false_iff, Bool.and_eq_false_iff, beq_eq_false_iff_ne,
    decide_eq_false_iff_not]
  omega

theorem IsSchemaName.endsSeen {name : String} (h : IsSchemaName name) : EndsSeen name := by
  obtain ⟨first, more, hname, -⟩ := h.1
  have hne : name.toList ≠ [] := by
    rw [hname]
    exact List.cons_ne_nil first more
  refine ⟨name.toList.getLast hne, List.getLast_mem_getLast? hne, ?_⟩
  by_contra hblank
  refine h.not_mem (Bool.eq_false_iff.mpr ?_) (List.getLast_mem hne)
  exact fun hname ↦ hblank (isBlank_of_isNameContinue hname)

/-- A text of blanks. -/
def blanks (count : Nat) : String := String.ofList (List.replicate count ' ')

theorem blanks_zero : blanks 0 = "" := rfl

@[simp]
theorem length_blanks (count : Nat) : (blanks count).length = count := by
  rw [blanks, String.length_ofList, List.length_replicate]

/-- Blanks behind a character that is not blank are cut off, and nothing else is. -/
theorem trimBack_append_blanks {text : String} (h : EndsSeen text) (count : Nat) :
    String.ofList (trimBack (text ++ blanks count).toList) = text := by
  obtain ⟨c, hc, hseen⟩ := h
  have htrim : trimBack (text.toList ++ List.replicate count ' ') = text.toList := by
    induction count with
    | zero =>
      rw [List.replicate_zero, List.append_nil, trimBack_eq_rdropWhile,
        List.rdropWhile_eq_self_iff]
      intro hne
      rw [List.getLast?_eq_some_getLast hne, Option.mem_some_iff] at hc
      rw [hc, hseen]
      exact Bool.false_ne_true
    | succ count ih =>
      rw [List.replicate_succ', ← List.append_assoc, trimBack_eq_rdropWhile,
        List.rdropWhile_concat_pos _ _ _ rfl]
      exact ih
  rw [blanks, String.toList_append, String.toList_ofList, htrim, String.ofList_toList]

namespace DecisionTable

/-! ## What is where in a line -/

/-- The text is in the line, all of it, from the given column on. -/
def StandsAt (column : Nat) (text line : String) : Prop := text.toList <+: line.toList.drop column

/-- From one column to the other there are blanks in the line, and two of them at least. -/
def IsGap (start stop : Nat) (line : String) : Prop :=
  start + 2 ≤ stop ∧ StandsAt start (blanks (stop - start)) line

/-- Each of the texts that a line is put together from starts where those before it end. -/
theorem standsAt_of_join {line text : String} {column : Nat} (before behind : List String)
    (hline : line = String.join (before ++ text :: behind))
    (hcolumn : (String.join before).length = column) : StandsAt column text line := by
  rw [hline, StandsAt, String.join_append, String.toList_append, ← hcolumn,
    ← String.length_toList, List.drop_left, String.join_cons, String.toList_append]
  exact List.prefix_append ..

theorem length_join_concat (before : List String) (text : String) :
    (String.join (before ++ [text])).length = (String.join before).length + text.length := by
  rw [String.join_append, String.length_append, String.join_cons, String.join_nil,
    String.append_empty]

/-- A cell with a gap behind it, and where what comes behind the gap starts. -/
theorem stands_cell {line cell : String} {start stop : Nat} (before behind : List String)
    (hline : line = String.join
      (before ++ cell :: blanks (stop - (start + cell.length)) :: behind))
    (hstart : (String.join before).length = start) (hstop : start + cell.length + 2 ≤ stop) :
    StandsAt start cell line ∧ IsGap (start + cell.length) stop line ∧
      (String.join (before ++ [cell, blanks (stop - (start + cell.length))])).length = stop := by
  have hbefore : (String.join (before ++ [cell])).length = start + cell.length := by
    rw [length_join_concat, hstart]
  refine ⟨standsAt_of_join before _ hline hstart,
    ⟨hstop, standsAt_of_join (before ++ [cell]) behind ?_ hbefore⟩, ?_⟩
  · rw [hline, List.append_assoc, List.singleton_append]
  · rw [List.append_cons, length_join_concat, hbefore, length_blanks]
    omega

/-! ## Rows in columns -/

/-- Where the cells of a block start that are behind the names. -/
structure Columns where
  type : Nat
  decision : Nat
  members : Nat

/-- The line shows the row, with its cells in the given columns. -/
structure Row.IsShown (columns : Columns) (row : Row) (line : String) : Prop where
  lead : StandsAt 0 "  " line
  name : StandsAt 2 row.name line
  type : StandsAt columns.type row.type line
  decision : StandsAt columns.decision row.decision line
  members : row.members ≠ "" → StandsAt columns.members row.members line
  /-- Only the cell of the members may be empty. -/
  filled : row.name ≠ "" ∧ row.type ≠ "" ∧ row.decision ≠ ""
  afterName : IsGap (2 + row.name.length) columns.type line
  afterType : IsGap (columns.type + row.type.length) columns.decision line
  afterDecision : row.members ≠ "" →
    IsGap (columns.decision + row.decision.length) columns.members line
  /-- There is nothing behind the last cell with something in it. -/
  length_eq : line.length = if row.members = "" then columns.decision + row.decision.length
    else columns.members + row.members.length
  endsSeen : EndsSeen line

/-- The row has cells that can be told from what is around them. -/
structure Row.IsPrintable (row : Row) : Prop where
  name : row.name ≠ ""
  type : row.type ≠ ""
  decision : EndsSeen row.decision
  members : row.members ≠ "" → EndsSeen row.members

/-- No cell of the row is wider than its column, and two blanks are between the columns. -/
structure Row.Fits (columns : Columns) (row : Row) : Prop where
  name : 2 + row.name.length + 2 ≤ columns.type
  type : columns.type + row.type.length + 2 ≤ columns.decision
  decision : columns.decision + row.decision.length + 2 ≤ columns.members

/-- The texts that the line of a row is put together from. -/
def Row.pieces (columns : Columns) (row : Row) : List String :=
  ["  ", row.name, blanks (columns.type - (2 + row.name.length)), row.type,
    blanks (columns.decision - (columns.type + row.type.length)), row.decision] ++
  if row.members = "" then []
  else [blanks (columns.members - (columns.decision + row.decision.length)), row.members]

section

variable {columns : Columns} {row : Row}

/-- What is put together from the texts shows the row. -/
theorem Row.isShown_join (hfits : row.Fits columns) (hrow : row.IsPrintable) :
    row.IsShown columns (String.join (row.pieces columns)) := by
  let line := String.join (row.pieces columns)
  let toType := ["  ", row.name, blanks (columns.type - (2 + row.name.length))]
  let toDecision :=
    toType ++ [row.type, blanks (columns.decision - (columns.type + row.type.length))]
  let toMembers := toDecision ++
    [row.decision, blanks (columns.members - (columns.decision + row.decision.length))]
  obtain ⟨hname, hafterName, htypeAt⟩ : StandsAt 2 row.name line ∧
      IsGap (2 + row.name.length) columns.type line ∧ (String.join toType).length = columns.type :=
    stands_cell ["  "] _ rfl rfl hfits.name
  obtain ⟨htype, hafterType, hdecisionAt⟩ : StandsAt columns.type row.type line ∧
      IsGap (columns.type + row.type.length) columns.decision line ∧
      (String.join toDecision).length = columns.decision :=
    stands_cell toType _ rfl htypeAt hfits.type
  have hdecision : StandsAt columns.decision row.decision line :=
    standsAt_of_join toDecision _ rfl hdecisionAt
  -- the decision is the last cell, or there are the members behind it
  have hend : (row.members ≠ "" → StandsAt columns.members row.members line ∧
        IsGap (columns.decision + row.decision.length) columns.members line) ∧
      line.length = (if row.members = "" then columns.decision + row.decision.length
        else columns.members + row.members.length) ∧ EndsSeen line := by
    by_cases hmembers : row.members = ""
    · have hline : line = String.join (toDecision ++ [row.decision]) :=
        congrArg (fun more ↦ String.join (toDecision ++ [row.decision] ++ more)) (if_pos hmembers)
      refine ⟨fun hne ↦ absurd hmembers hne, ?_, ?_⟩
      · rw [if_pos hmembers, hline, length_join_concat, hdecisionAt]
      · rw [hline]
        exact hrow.decision.join _
    · have hline : line = String.join (toMembers ++ [row.members]) :=
        congrArg (fun more ↦ String.join (toDecision ++ [row.decision] ++ more)) (if_neg hmembers)
      obtain ⟨-, hafterDecision, hmembersAt⟩ :=
        stands_cell toDecision _ hline hdecisionAt hfits.decision
      refine ⟨fun _ ↦ ⟨standsAt_of_join toMembers _ hline hmembersAt, hafterDecision⟩, ?_, ?_⟩
      · rw [if_neg hmembers, hline, length_join_concat, hmembersAt]
      · rw [hline]
        exact (hrow.members hmembers).join _
  obtain ⟨hmembers, hlength, hseen⟩ := hend
  exact {
    lead := standsAt_of_join [] _ rfl rfl
    name := hname
    type := htype
    decision := hdecision
    members := fun hne ↦ (hmembers hne).1
    filled := ⟨hrow.name, hrow.type, hrow.decision.ne_empty⟩
    afterName := hafterName
    afterType := hafterType
    afterDecision := fun hne ↦ (hmembers hne).2
    length_eq := hlength
    endsSeen := hseen }

end

/-! ## The lines of a block -/

theorem length_le_utf8ByteSize (text : String) : text.length ≤ text.utf8ByteSize := by
  have hbytes (cs : List Char) : cs.length ≤ Token.byteCount cs := by
    induction cs with
    | nil => exact Nat.le_refl 0
    | cons c cs ih =>
      rw [List.length_cons, Token.byteCount_cons]
      have := c.utf8Size_pos
      omega
  rw [← String.length_toList, ← Token.byteCount_toList]
  exact hbytes text.toList

/-- No cell has more characters than its column is wide. -/
theorem length_le_width {cells : List String} {cell : String} (h : cell ∈ cells) :
    cell.length ≤ width cells := by
  have hwidest : cell.utf8ByteSize ≤ (cells.map (·.utf8ByteSize)).max?.getD 0 :=
    List.le_max?_getD_of_mem (List.mem_map_of_mem h)
  rw [width, List.foldl_max, Nat.zero_max]
  exact (length_le_utf8ByteSize cell).trans hwidest

/-- The columns of some rows. -/
def columnsOf (rows : List Row) : Columns :=
  let type := 2 + width (rows.map (·.name)) + 2
  let decision := type + width (rows.map (·.type)) + 2
  ⟨type, decision, decision + width (rows.map (·.decision)) + 2⟩

theorem fits_columnsOf {rows : List Row} {row : Row} (h : row ∈ rows) :
    row.Fits (columnsOf rows) := by
  have hname : row.name.length ≤ width (rows.map (·.name)) :=
    length_le_width (List.mem_map_of_mem h)
  have htype : row.type.length ≤ width (rows.map (·.type)) :=
    length_le_width (List.mem_map_of_mem h)
  have hdecision : row.decision.length ≤ width (rows.map (·.decision)) :=
    length_le_width (List.mem_map_of_mem h)
  constructor
  all_goals
    simp only [columnsOf]
    omega

/-- A cell that is filled up, with the two blanks behind its column. -/
theorem pad_append {cell : String} {start width : Nat}
    (h : start + cell.length + 2 ≤ start + width + 2) :
    pad width cell ++ "  " = cell ++ blanks (start + width + 2 - (start + cell.length)) := by
  have hcount : start + width + 2 - (start + cell.length) = (width - cell.length) + 2 := by omega
  rw [hcount, pad, blanks, List.replicate_add, String.ofList_append, String.append_assoc]
  rfl

/-- A row is written with its cells in the columns. -/
theorem lines_eq {rows : List Row} (h : ∀ row ∈ rows, row.IsPrintable) :
    lines rows = rows.map fun row ↦ String.join (row.pieces (columnsOf rows)) := by
  refine List.map_congr_left fun row hrow ↦ ?_
  have hfits := fits_columnsOf hrow
  let columns := columnsOf rows
  have hwritten : "  " ++ pad (width (rows.map (·.name))) row.name ++ "  " ++
      pad (width (rows.map (·.type))) row.type ++ "  " ++
      pad (width (rows.map (·.decision))) row.decision ++ "  " ++ row.members
        = String.join (row.pieces columns) ++ blanks (if row.members = "" then
            columns.members - (columns.decision + row.decision.length) else 0) := by
    calc _ = "  " ++ (pad (width (rows.map (·.name))) row.name ++ "  ") ++
          (pad (width (rows.map (·.type))) row.type ++ "  ") ++
          (pad (width (rows.map (·.decision))) row.decision ++ "  ") ++ row.members := by
            simp only [String.append_assoc]
      _ = _ := by
        rw [pad_append hfits.name, pad_append hfits.type, pad_append hfits.decision, Row.pieces]
        by_cases hmembers : row.members = ""
        · rw [if_pos hmembers, if_pos hmembers, hmembers]
          simp only [List.append_nil, String.join_cons, String.join_nil, String.append_assoc,
            String.append_empty]
          rfl
        · rw [if_neg hmembers, if_neg hmembers, blanks_zero]
          simp only [List.cons_append, List.nil_append, String.join_cons, String.join_nil,
            String.append_assoc, String.append_empty]
          rfl
  dsimp only
  rw [hwritten]
  exact trimBack_append_blanks (Row.isShown_join hfits (h row hrow)).endsSeen _

/-- The lines of a block show its rows, all in the same columns. -/
theorem lines_isShown {rows : List Row} (h : ∀ row ∈ rows, row.IsPrintable) :
    List.Forall₂ (fun row line ↦ row.IsShown (columnsOf rows) line) rows (lines rows) := by
  rw [lines_eq h, List.forall₂_map_right_iff, List.forall₂_same]
  exact fun row hrow ↦ Row.isShown_join (fits_columnsOf hrow) (h row hrow)

/-! ## The rows of a declaration -/

section

variable {leaves : LeafTable} {decl : Declaration Span} {field : Field Span}

theorem text_ne_empty {ty : TypeRef} (h : ty.name ≠ "") : ty.text ≠ "" := by
  obtain ⟨qualifier, name, args, depth⟩ := ty
  intro hempty
  rw [TypeRef.text, String.append_eq_empty_iff, String.append_eq_empty_iff] at hempty
  obtain ⟨⟨hpath, -⟩, -⟩ := hempty
  by_cases hqualifier : qualifier = []
  · rw [hqualifier, List.nil_append, String.intercalate_singleton] at hpath
    exact h hpath
  · rw [String.intercalate_append_of_ne_nil hqualifier (List.cons_ne_nil _ _),
      String.append_eq_empty_iff, String.intercalate_singleton] at hpath
    exact h hpath.2

theorem endsSeen_decision : EndsSeen (decision leaves field) := by
  cases hreason : field.exclusion with
  | some reason =>
    rw [decision_of_exclusion hreason]
    cases reason <;> decide +kernel
  | none =>
    have hall : ∀ verdict ∈ verdicts, EndsSeen verdict := by decide +kernel
    exact hall _ (decision_mem_verdicts hreason)

theorem endsSeen_membersText (h : EndsSeen field.name) :
    EndsSeen (membersText (field.descriptor leaves)) := by
  rw [membersText, Field.descriptor]
  by_cases hleaf : leaves.isLeaf field.type = true
  · rw [if_pos hleaf]
    exact h.append _
  · rw [if_neg hleaf]
    exact EndsSeen.append (by decide) _

theorem row_isPrintable (hdecl : decl.NamesAre IsSchemaName) (hfield : field ∈ decl.fields) :
    (row leaves (decl.synthesis leaves).descriptors field).IsPrintable where
  name := (hdecl.fields field hfield).name.endsSeen.ne_empty
  type := by
    have hname : field.type.name ∈ field.type.segments := List.mem_append_right _ List.mem_cons_self
    exact text_ne_empty ((hdecl.fields field hfield).type _ (.self _) _ hname).endsSeen.ne_empty
  decision := endsSeen_decision
  members hmembers := by
    obtain ⟨descriptor, hdescriptor, hsome⟩ := (members_cases _ _).resolve_left hmembers
    obtain ⟨other, hother, rfl⟩ := Declaration.exists_field_of_mem_synthesis hdescriptor
    change EndsSeen (members _ field)
    rw [hsome]
    exact endsSeen_membersText (hdecl.fields other hother).name.endsSeen

/-- There are columns in which the lines of a class show the rows of its fields. -/
theorem exists_isShown_blockLines (hdecl : decl.NamesAre IsSchemaName) (leaves : LeafTable)
    (hkind : decl.kind = .cls) (hfields : decl.fields ≠ []) :
    let descriptors := (decl.schema leaves).descriptors
    ∃ columns, List.Forall₂ (fun field line ↦ (row leaves descriptors field).IsShown columns line)
      decl.fields (blockLines leaves decl descriptors).tail := by
  intro descriptors
  let rows := decl.fields.map (row leaves descriptors)
  have hrows : ∀ row ∈ rows, row.IsPrintable :=
    List.forall_mem_map.mpr fun field hfield ↦ row_isPrintable hdecl hfield
  refine ⟨columnsOf rows, ?_⟩
  rw [tail_blockLines hkind hfields]
  exact List.forall₂_map_left_iff.mp (lines_isShown hrows)

end

end DecisionTable

/-- **The table lines up.** Each block of the table is that of one type, in their order. For a class
with fields there are columns in which all rows of the block have their cells: in full, with two
blanks at least between one cell and the next, and with nothing behind the last one. -/
theorem decisionTables_lineUp (sources : List Source) (leaves : LeafTable) (selection : Selection) :
    let c := compile sources leaves selection
    List.Forall₂ (fun type block ↦ ∃ decl, c.declaration? type.name = some decl ∧
        (type.kind = .cls → decl.fields ≠ [] → ∃ columns : DecisionTable.Columns,
          List.Forall₂ (fun field line ↦
              (DecisionTable.row leaves type.descriptors field).IsShown columns line)
            decl.fields block.tail))
      c.types (lineBlocks c.decisionTables) := by
  intro c
  have htypes : c.types = (c.declarations.filter selection.selects).map (·.schema leaves) := rfl
  rw [lineBlocks_decisionTables, htypes, List.forall₂_map_left_iff, List.forall₂_map_right_iff,
    List.forall₂_same]
  intro decl hselected
  have hdecl := (List.mem_filter.mp hselected).1
  have hnames := namesAre_of_mem_declarations leaves selection hdecl
  exact ⟨decl, declaration?_of_mem leaves selection hdecl,
    DecisionTable.exists_isShown_blockLines hnames leaves⟩

end FieldPaths
