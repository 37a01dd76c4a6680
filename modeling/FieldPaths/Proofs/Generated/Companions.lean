import FieldPaths.Proofs.Generated.Meaning

/-!
# The names of companions

A companion is a type of its own beside the types of a schema, under a name that is nowhere
declared: that of its type with the suffix behind it. Two companions cannot meet, because types have
different names and all of them get the same suffix. But a companion and a declared type can. A name
is looked at for its spelling alone, so nothing keeps it from being one that is taken already, as
all companions are where the suffix is empty.

The names are taken from the text as it is written, from between `pub struct` and the semicolon.
-/

namespace FieldPaths

namespace Generated

open Piece Rust

variable {style : Style}

/-! ## Where a type is defined -/

/-- The names of the unit structs among pieces of generated text. -/
def structNames : List Piece → List String
  | .fixed text :: .identifier name :: more =>
    if text = "pub struct " then name :: structNames more else structNames more
  | _ :: more => structNames more
  | [] => []

/-- The companions among blocks. -/
def companionsOf (blocks : List Block) : List String :=
  blocks.filterMap fun
    | .companion name _ => some name
    | _ => none

variable {pieces more : List Piece}

theorem structNames_cons {piece : Piece} (h : piece ≠ fixed "pub struct ") :
    structNames (piece :: more) = structNames more := by
  cases piece with
  | literal value => rw [structNames]; nofun
  | identifier name => rw [structNames]; nofun
  | fixed text =>
    cases more with
    | nil => rfl
    | cons next more =>
      cases next with
      | fixed next => rfl
      | literal value => rfl
      | identifier name =>
        rw [structNames, if_neg fun htext ↦ h (congrArg fixed htext)]
        rfl

theorem structNames_append (h : fixed "pub struct " ∉ pieces) :
    structNames (pieces ++ more) = structNames more := by
  induction pieces with
  | nil => rfl
  | cons piece pieces ih =>
    rw [List.mem_cons, not_or] at h
    rw [List.cons_append, structNames_cons (Ne.symm h.1), ih h.2]

theorem lintLine_ne (style : Style) (lint : String) : lintLine style lint ≠ "pub struct " := by
  intro h
  have hfirst : (lintLine style lint).toList.head? = some 'p' := by
    rw [h]
    rfl
  rw [lintLine] at hfirst
  split at hfirst
  · simp at hfirst
  · cases hfirst

theorem not_mem_intercalate {separator piece : Piece} {parts : List (List Piece)}
    (hseparator : piece ≠ separator) (hparts : ∀ part ∈ parts, piece ∉ part) :
    piece ∉ [separator].intercalate parts := by
  intro hmem
  obtain heq | ⟨part, hpart, hpiece⟩ := eq_or_mem_of_mem_intercalate hmem
  · exact hseparator heq
  · exact hparts part hpart hpiece

/-- Constants are written where no type is defined. -/
theorem structNames_constants (owner : String) (constants : List FieldConstant) :
    structNames ((Block.constants owner constants).pieces style ++ more) = structNames more := by
  apply structNames_append
  simp [Block.pieces, constantPieces, (lintLine_ne _ _).symm]

/-- A companion is defined once, in front of its functions. -/
theorem structNames_companion (name : String) (functions : List PathFunction) :
    structNames ((Block.companion name functions).pieces style ++ more)
      = name :: structNames more := by
  have hfunctions : fixed "pub struct " ∉ [fixed "\n"].intercalate (functions.map functionPieces) := by
    apply not_mem_intercalate
    · simp
    · simp [functionPieces]
  obtain ⟨rest, hblock, hrest⟩ : ∃ rest, (Block.companion name functions).pieces style
      = fixed "pub struct " :: identifier name :: rest ∧ fixed "pub struct " ∉ rest :=
    ⟨_, rfl, by simp [hfunctions, (lintLine_ne _ _).symm]⟩
  rw [hblock, List.cons_append, List.cons_append, structNames, if_pos rfl,
    structNames_append hrest]

theorem structNames_block (block : Block) :
    structNames (block.pieces style ++ more) = companionsOf [block] ++ structNames more := by
  cases block with
  | header => exact structNames_cons (by simp [Generated.header])
  | constants owner constants => exact structNames_constants owner constants
  | companion name functions => exact structNames_companion name functions

/-- The types that are defined are the companions, in their order. -/
theorem structNames_piecesOf (style : Style) (blocks : List Block) :
    structNames (piecesOf style blocks) = companionsOf blocks := by
  induction blocks with
  | nil => rfl
  | cons first blocks ih =>
    cases blocks with
    | nil =>
      rw [piecesOf, List.map_singleton, List.intercalate_singleton, ← List.append_nil (Block.pieces ..),
        structNames_block]
      exact List.append_nil _
    | cons second blocks =>
      rw [piecesOf, List.map_cons] at ih
      rw [piecesOf, List.map_cons, List.map_cons, List.intercalate_cons_cons, List.append_assoc,
        structNames_block, List.singleton_append, structNames_cons (by simp), ih]
      exact (List.filterMap_append ..).symm

/-! ## The companions of a compilation -/

variable {types : List TypeSchema} {bs : List Block}

theorem companionsOf_blocksOf (style : Style) (type : TypeSchema) :
    companionsOf (blocksOf style type) = (companion? style type).toList := by
  rw [companionsOf, blocksOf]
  cases companion? style type <;> rfl

/-- Every type with builders has its companion, and nothing else has one. -/
theorem companionsOf_blocks (h : blocks style types = .ok bs) :
    companionsOf bs = types.filterMap (companion? style) := by
  obtain ⟨-, rfl⟩ := blocks_eq_append h
  have hheader : companionsOf (if style.header then [.header] else []) = [] := by
    split <;> rfl
  have hnone : ∀ type ∈ types, type.descriptors.isEmpty = true → companion? style type = none := by
    intro type _ hempty
    rw [companion?, TypeSchema.builders, buildersOf, List.isEmpty_iff.mp hempty]
    rfl
  rw [companionsOf, List.filterMap_append, ← companionsOf, hheader, List.nil_append,
    List.filterMap_flatMap]
  change (types.filter _).flatMap (fun type ↦ companionsOf (blocksOf style type)) = _
  simp only [companionsOf_blocksOf]
  rw [← List.filterMap_eq_flatMap_toList, List.filterMap_filter]
  apply List.filterMap_congr
  intro type htype
  split
  · rfl
  · rename_i hempty
    rw [hnone type htype (by simpa using hempty)]

theorem companionName_of_plain {type : TypeSchema} (h : unraw type.name = type.name) :
    companionName type.name style.suffix = type.name ++ style.suffix := by
  rw [companionName, h]

/-- Companions have different names because types have. -/
theorem nodup_companions (hnames : (types.map (·.name)).Nodup)
    (hplain : ∀ type ∈ types, unraw type.name = type.name) :
    (types.filterMap (companion? style)).Nodup := by
  rw [List.Nodup, List.pairwise_map] at hnames
  rw [List.Nodup, List.pairwise_filterMap]
  refine hnames.imp_of_mem ?_
  intro type other htype hother hne name hname name' hname' heq
  obtain rfl := companion?_eq hname
  obtain rfl := companion?_eq hname'
  rw [companionName_of_plain (hplain type htype), companionName_of_plain (hplain other hother),
    ← String.toList_inj, String.toList_append, String.toList_append,
    List.append_cancel_right_eq, String.toList_inj] at heq
  exact hne heq

theorem structsOf_flatMap (style : Style) (types : List TypeSchema) :
    structsOf (types.flatMap (definitionsOf style)) = types.filterMap (companion? style) := by
  rw [structsOf, List.filterMap_flatMap, List.filterMap_eq_flatMap_toList]
  exact congrArg (types.flatMap ·) (funext fun _ ↦ structsOf_definitionsOf)

section

variable {sources : List Source} {leaves : LeafTable} {selection : Selection}

/-- A class has builders if paths go on through one of its eligible fields. -/
theorem isEmpty_builders_schema {decl : Declaration Span} (h : decl.kind = .cls) :
    (decl.schema leaves).builders.isEmpty
      = !decl.eligibleFields.any fun field ↦ !leaves.isLeaf field.type := by
  rw [Declaration.schema, TypeSchema.builders, buildersOf, Declaration.synthesis, h,
    List.filterMap_map, Bool.eq_iff_iff, List.isEmpty_iff, List.filterMap_eq_nil_iff]
  simp [Field.descriptor]

/-- The companions of a compilation, by the declarations they are for. -/
theorem filterMap_companion?_types
    (hvalid : (compile sources leaves selection).isValid = true) :
    (compile sources leaves selection).types.filterMap (companion? style)
      = (((compile sources leaves selection).declarations.filter selection.selects).filter
          fun owner ↦ owner.eligibleFields.any fun field ↦ !leaves.isLeaf field.type).map
        fun owner ↦ owner.name ++ style.suffix := by
  have hplain := (compile_types_names sources leaves selection).2
  have hkinds := compile_types_no_conflict hvalid
  have hof : ∀ owner ∈ (compile sources leaves selection).declarations.filter selection.selects,
      companion? style (owner.schema leaves)
        = if owner.eligibleFields.any fun field ↦ !leaves.isLeaf field.type then
            some (owner.name ++ style.suffix)
          else none := by
    intro owner howner
    have htype : owner.schema leaves ∈ (compile sources leaves selection).types :=
      List.mem_map_of_mem howner
    obtain ⟨-, -, -, hkind, -⟩ := hkinds _ htype
    rw [companion?, isEmpty_builders_schema hkind, companionName_of_plain (hplain _ htype)]
    cases owner.eligibleFields.any fun field ↦ !leaves.isLeaf field.type <;> rfl
  change (List.map _ _).filterMap _ = _
  rw [List.filterMap_map, ← List.filterMap_eq_map']
  exact (List.filterMap_congr hof).trans List.filterMap_filter.symm

/-- **When companions clash.** The unit structs in the text that is written for a compilation are
the companions of those selected declarations that have an eligible field through which paths go on,
in their order and named like them with the suffix behind it. Their names are all different. One of
them is the name of a declaration exactly if a declaration is named like that, which nothing keeps
it from. Where the text can be read, it defines the same unit structs. -/
theorem rustText_companions (sources : List Source) (leaves : LeafTable) (selection : Selection)
    (style : Style) (text : String)
    (htext : (compile sources leaves selection).rustText style = .ok text) :
    let decls := (compile sources leaves selection).declarations
    let owners := (decls.filter selection.selects).filter fun owner ↦
      owner.eligibleFields.any fun field ↦ !leaves.isLeaf field.type
    ∃ bs, blocks style (compile sources leaves selection).types = .ok bs ∧
      text = join (piecesOf style bs) ∧
      structNames (piecesOf style bs) = (owners.map fun owner ↦ owner.name ++ style.suffix) ∧
      (structNames (piecesOf style bs)).Nodup ∧
      ((∀ decl ∈ decls, decl.name ∉ structNames (piecesOf style bs)) ↔
        ∀ owner ∈ owners, ∀ decl ∈ decls, decl.name ≠ owner.name ++ style.suffix) ∧
      ∀ defs, Definition.read? text = some defs →
        structsOf defs = structNames (piecesOf style bs) := by
  intro decls owners
  obtain ⟨-, hvalid, hrust⟩ := rustText_of_compilation htext
  obtain ⟨bs, hblocks, hjoin⟩ := rustText_eq_ok htext
  obtain ⟨hnames, hplain⟩ := compile_types_names sources leaves selection
  have hstructs : structNames (piecesOf style bs)
      = (compile sources leaves selection).types.filterMap (companion? style) := by
    rw [structNames_piecesOf, companionsOf_blocks hblocks]
  have howners : structNames (piecesOf style bs)
      = owners.map fun owner ↦ owner.name ++ style.suffix :=
    hstructs.trans (filterMap_companion?_types hvalid)
  refine ⟨bs, hblocks, hjoin, howners, ?_, ?_, fun defs hdefs ↦ ?_⟩
  · rw [hstructs]
    exact nodup_companions hnames hplain
  · rw [howners]
    constructor
    · intro hfree owner howner decl hdecl hname
      exact hfree decl hdecl (List.mem_map.mpr ⟨owner, howner, hname.symm⟩)
    · intro hnone decl hdecl hmem
      obtain ⟨owner, howner, hname⟩ := List.mem_map.mp hmem
      exact hnone owner howner decl hdecl hname.symm
  · rw [read?_rustText (fun _ htype _ ↦ exists_field_of_mem_descriptors htype) hrust] at hdefs
    split at hdefs
    · cases hdefs
    · obtain rfl := Option.some.inj hdefs
      rw [structsOf_flatMap, hstructs]

/-- A class `OrderPaths` beside a class `Order`: the text can be read, and defines `OrderPaths`
again. -/
theorem rustText_companions_order :
    let c := compile [⟨.inline, "@Schema class Order \x7b customer: User \x7d
        class OrderPaths \x7b a: int \x7d"⟩] {} .marked
    ∃ text defs, c.rustText {} = .ok text ∧ Definition.read? text = some defs ∧
      structsOf defs = ["OrderPaths"] ∧ namesOf c.declarations = ["Order", "OrderPaths"] ∧
      ∃ bs, text = join (piecesOf {} bs) ∧
        ¬ ∀ decl ∈ c.declarations, decl.name ∉ structNames (piecesOf {} bs) := by
  intro c
  have hok : (c.rustText {}).isOk = true := by decide +kernel
  obtain ⟨text, htext⟩ := exists_ok_of_isOk hok
  obtain ⟨bs, -, hjoin, hstructs, -, hfree, hread⟩ := rustText_companions _ _ _ _ text htext
  have hkeyword : c.types.any (hasKeywordCompanion {}) = false := by decide +kernel
  have hdefs := read?_rustText (fun _ htype _ ↦ exists_field_of_mem_descriptors htype)
    (rustText_of_compilation htext).2.2
  rw [hkeyword, if_neg Bool.false_ne_true] at hdefs
  refine ⟨text, _, htext, hdefs, ?_, by decide +kernel, bs, hjoin, ?_⟩
  · rw [hread _ hdefs, hstructs]
    decide +kernel
  · rw [hfree]
    decide +kernel

end

end Generated

end FieldPaths
