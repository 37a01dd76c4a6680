import FieldPaths.Generated.Items
import FieldPaths.Proofs.Descriptor
import FieldPaths.Proofs.Rust.Name

/-!
# The names in generated Rust

Where the generated text has names. The text of a block is cut into pieces: what is the same for
every schema, what is written as a string literal, and the names, which stand where Rust wants an
identifier. What there is to say about names is said about these.

Every name is looked at before anything is written, and all but one is written in a way that
makes up for keywords: a type by its raw form, a constant and a function by the mark in front. The
companion is written as it was looked at. So this is the one name that can come out as a
keyword, which it does where type name and suffix together spell one.
-/

namespace FieldPaths

namespace Generated

/-! ## Cutting the text -/

/-- A piece of generated text. -/
inductive Piece where
  /-- What does not depend on the schema. -/
  | fixed (text : String)
  /-- A string literal for the value. -/
  | literal (value : String)
  /-- A name where an identifier stands. -/
  | identifier (name : String)
deriving Repr, DecidableEq

namespace Piece

/-- A piece as it is written. -/
def text : Piece → String
  | fixed text => text
  | literal value => Rust.quoted value
  | identifier name => name

/-- Pieces one after the other. -/
def join (pieces : List Piece) : String := String.join (pieces.map text)

theorem join_nil : join [] = "" := rfl

theorem join_cons (piece : Piece) (more : List Piece) :
    join (piece :: more) = piece.text ++ join more := String.join_cons

theorem join_append (pieces more : List Piece) :
    join (pieces ++ more) = join pieces ++ join more := by
  rw [join, List.map_append, String.join_append, join, join]

theorem join_flatMap {α : Type} (f : α → List Piece) (l : List α) :
    join (l.flatMap f) = String.join (l.map fun a ↦ join (f a)) := by
  induction l with
  | nil => rfl
  | cons a l ih => rw [List.flatMap_cons, join_append, ih, List.map_cons, String.join_cons]

theorem join_intercalate (separator : String) (pieces : List (List Piece)) :
    join ([fixed separator].intercalate pieces) = separator.intercalate (pieces.map join) := by
  induction pieces with
  | nil => rfl
  | cons first more ih =>
    cases more with
    | nil => rw [List.intercalate_singleton, List.map_singleton, String.intercalate_singleton]
    | cons second more =>
      rw [List.intercalate_cons_cons, join_append, join_append, ih, List.map_cons, List.map_cons,
        List.map_cons, String.intercalate_cons_cons, join_cons, join_nil, text, String.append_empty]

end Piece

open Piece

/-- The pieces of a constant. -/
def constantPieces (constant : FieldConstant) : List Piece :=
  [fixed "    pub const ", identifier constant.name, fixed ": &'static str = ",
    literal constant.value, fixed ";\n"]

/-- The pieces of a function. -/
def functionPieces (function : PathFunction) : List Piece :=
  [fixed "    pub fn ", identifier function.name, fixed "(", identifier function.param,
    fixed ": &str) -> String \x7b\n", fixed "        [", identifier function.owner, fixed "::",
    identifier function.name, fixed ", ", literal pathSeparator, fixed ", ",
    identifier function.param, fixed "].concat()\n", fixed "    \x7d\n"]

/-- The pieces of a block. -/
def Block.pieces (style : Style) : Block → List Piece
  | .header => [fixed Generated.header]
  | .constants owner ofType =>
    [fixed (lintLine style "non_upper_case_globals"), fixed "impl ", identifier owner,
      fixed " \x7b\n"] ++ ofType.flatMap constantPieces ++ [fixed "\x7d"]
  | .companion name functions =>
    [fixed "pub struct ", identifier name, fixed ";\n\n", fixed (lintLine style "non_snake_case"),
      fixed "impl ", identifier name, fixed " \x7b\n"] ++
      [fixed "\n"].intercalate (functions.map functionPieces) ++ [fixed "\x7d"]

theorem join_constantPieces (constant : FieldConstant) :
    join (constantPieces constant) = constantLine constant := by
  unfold constantLine
  simp only [constantPieces, join_cons, join_nil, text, String.append_assoc]
  rw [String.append_empty]

theorem join_functionPieces (function : PathFunction) :
    join (functionPieces function) = functionLines function := by
  unfold functionLines
  simp only [functionPieces, join_cons, join_nil, text, String.append_assoc]
  rw [String.append_empty]

/-- The pieces of a block make up its text. -/
theorem Block.join_pieces (style : Style) (block : Block) :
    join (block.pieces style) = block.text style := by
  -- unfolded in place, since the two sides must not be compared before they have one shape
  unfold Block.pieces Block.text
  cases block with
  | header =>
    dsimp only
    rw [join_cons, join_nil, String.append_empty, Piece.text]
  | constants owner ofType =>
    simp only [join_append, join_flatMap, join_constantPieces, join_cons, join_nil, Piece.text,
      String.append_assoc]
    rw [String.append_empty, String.empty_append]
  | companion name functions =>
    have hlines : (functions.map functionPieces).map join = functions.map functionLines := by
      simp only [List.map_map, Function.comp_def, join_functionPieces]
    simp only [join_append, join_intercalate, hlines, join_cons, join_nil, Piece.text,
      String.append_assoc]
    rw [String.append_empty, String.empty_append]

/-- The pieces of blocks with an empty line between them. -/
def piecesOf (style : Style) (blocks : List Block) : List Piece :=
  [fixed "\n\n"].intercalate (blocks.map (·.pieces style))

theorem join_piecesOf (style : Style) (blocks : List Block) :
    join (piecesOf style blocks) = "\n\n".intercalate (blocks.map (·.text style)) := by
  rw [piecesOf, join_intercalate, List.map_map]
  exact congrArg _ (List.map_congr_left fun block _ ↦ block.join_pieces style)

/-! ## Where the names are -/

variable {name : String}

theorem identifier_mem_intercalate {α : Type} {separator : String} {f : α → List Piece}
    {l : List α} :
    identifier name ∈ [fixed separator].intercalate (l.map f) ↔ ∃ a ∈ l, identifier name ∈ f a := by
  induction l with
  | nil => simp
  | cons first more ih =>
    cases more with
    | nil => simp
    | cons second more =>
      rw [List.map_cons] at ih
      rw [List.map_cons, List.map_cons, List.intercalate_cons_cons, List.mem_append,
        List.mem_append, ih]
      simp

theorem identifier_mem_constants {style : Style} {owner : String} {constants : List FieldConstant} :
    identifier name ∈ (Block.constants owner constants).pieces style ↔
      name = owner ∨ ∃ constant ∈ constants, name = constant.name := by
  simp [Block.pieces, constantPieces]

theorem identifier_mem_functionPieces {function : PathFunction} :
    identifier name ∈ functionPieces function ↔
      name = function.name ∨ name = function.param ∨ name = function.owner := by
  simp only [functionPieces, List.mem_cons, List.not_mem_nil, identifier.injEq, reduceCtorEq]
  grind

theorem identifier_mem_companion {style : Style} {companion : String}
    {functions : List PathFunction} :
    identifier name ∈ (Block.companion companion functions).pieces style ↔
      name = companion ∨ ∃ function ∈ functions,
        name = function.name ∨ name = function.param ∨ name = function.owner := by
  simp [Block.pieces, identifier_mem_intercalate, identifier_mem_functionPieces]

/-! ## The names of a type -/

theorem exists_field_of_mem_descriptors {sources : List Source} {leaves : LeafTable}
    {selection : Selection} {type : TypeSchema} {descriptor : Descriptor}
    (htype : type ∈ (compile sources leaves selection).types)
    (hdescriptor : descriptor ∈ type.descriptors) :
    ∃ field : Field Span, descriptor = field.descriptor leaves := by
  obtain ⟨decl, -, rfl⟩ := List.mem_map.mp htype
  obtain ⟨field, -, hfield⟩ := Declaration.exists_field_of_mem_synthesis hdescriptor
  exact ⟨field, hfield⟩

/-- The names of a block are what they have to be: all but the name of a companion are legal as they
are written. -/
def Block.IsNamed : Block → Prop
  | .header => True
  | .constants owner ofType => Rust.IsLegal owner ∧ ∀ constant ∈ ofType, Rust.IsLegal constant.name
  | .companion name functions => Rust.isIdentifier name = true ∧ ∀ function ∈ functions,
      Rust.IsLegal function.name ∧ Rust.IsLegal function.param ∧ Rust.IsLegal function.owner

section

variable {leaves : LeafTable} {style : Style} {type : TypeSchema}
  (hmade : ∀ descriptor ∈ type.descriptors,
    ∃ field : Field Span, descriptor = field.descriptor leaves)

include hmade

theorem exists_field_of_mem_constants {constant : FieldConstant} (h : constant ∈ type.constants) :
    ∃ field : Field Span, field.descriptor leaves ∈ type.descriptors ∧
      constant = ⟨descriptorName field.name, field.name⟩ := by
  obtain ⟨descriptor, hdescriptor, rfl⟩ := List.mem_map.mp h
  obtain ⟨field, rfl⟩ := hmade descriptor hdescriptor
  exact ⟨field, hdescriptor, rfl⟩

theorem exists_field_of_mem_builders {builder : PathBuilder} (h : builder ∈ type.builders) :
    ∃ field : Field Span, field.descriptor leaves ∈ type.descriptors ∧
      builder = ⟨descriptorName field.name, subpathParam, field.name,
        field.name ++ pathSeparator⟩ := by
  obtain ⟨descriptor, hdescriptor, hbuilder⟩ := List.mem_filterMap.mp h
  obtain ⟨field, rfl⟩ := hmade descriptor hdescriptor
  exact ⟨field, hdescriptor, Field.builder_eq hbuilder⟩

variable (hchecked : ∀ name ∈ checkedNames style type, Rust.isIdentifier name = true)

include hchecked

/-- The blocks of a type whose names were looked at are named as they have to be. -/
theorem isNamed_of_mem_blocksOf : ∀ block ∈ blocksOf style type, block.IsNamed ∧ block ≠ .header := by
  have howner : Rust.IsLegal (Rust.identifier type.name) :=
    Rust.identifier_isLegal (hchecked _ (by simp [checkedNames]))
  have hfield {field : Field Span} (h : field.descriptor leaves ∈ type.descriptors) :
      Rust.IsLegal (descriptorName field.name) := by
    refine Rust.descriptorName_isLegal (hchecked _ ?_)
    rw [checkedNames, List.mem_append, List.mem_cons]
    exact .inl (.inr (List.mem_map.mpr ⟨_, h, rfl⟩))
  intro block hblock
  rcases List.mem_cons.mp hblock with rfl | hblock
  · refine ⟨⟨howner, fun constant hconstant ↦ ?_⟩, nofun⟩
    obtain ⟨field, hdescriptor, rfl⟩ := exists_field_of_mem_constants hmade hconstant
    exact hfield hdescriptor
  · rw [Option.mem_toList, Option.map_eq_some_iff] at hblock
    obtain ⟨companion, hcompanion, rfl⟩ := hblock
    have hname : companion ∈ checkedNames style type := by
      rw [checkedNames, hcompanion]
      simp
    refine ⟨⟨hchecked _ hname, fun function hfunction ↦ ?_⟩, nofun⟩
    obtain ⟨builder, hbuilder, rfl⟩ := List.mem_map.mp hfunction
    obtain ⟨field, hdescriptor, rfl⟩ := exists_field_of_mem_builders hmade hbuilder
    exact ⟨hfield hdescriptor, Rust.subpathParam_isLegal, howner⟩

/-- Of the names of a type that was looked at, all but that of its companion are legal. -/
theorem isLegal_of_mem_blocksOf {block : Block} (hblock : block ∈ blocksOf style type)
    (hname : identifier name ∈ block.pieces style) :
    Rust.IsLegal name ∨ companion? style type = some name := by
  have hnamed := (isNamed_of_mem_blocksOf hmade hchecked block hblock).1
  rcases List.mem_cons.mp hblock with rfl | hblock
  · obtain ⟨howner, hconstants⟩ := hnamed
    rcases identifier_mem_constants.mp hname with rfl | ⟨constant, hconstant, rfl⟩
    · exact .inl howner
    · exact .inl (hconstants constant hconstant)
  · rw [Option.mem_toList, Option.map_eq_some_iff] at hblock
    obtain ⟨companion, hcompanion, rfl⟩ := hblock
    rcases identifier_mem_companion.mp hname with rfl | ⟨function, hfunction, hname⟩
    · exact .inr hcompanion
    · obtain ⟨hfn, hparam, howner⟩ := hnamed.2 function hfunction
      rcases hname with rfl | rfl | rfl
      · exact .inl hfn
      · exact .inl hparam
      · exact .inl howner

end

theorem checkedBlocksOf_eq_ok {style : Style} {type : TypeSchema} {blocks : List Block} :
    checkedBlocksOf style type = .ok blocks ↔
      (∀ name ∈ checkedNames style type, Rust.isIdentifier name = true) ∧
        blocks = blocksOf style type := by
  rw [checkedBlocksOf]
  split
  · rename_i name hname
    refine iff_of_false nofun fun h ↦ ?_
    have hrefused := List.find?_some hname
    rw [h.1 name (List.mem_of_find?_eq_some hname)] at hrefused
    cases hrefused
  · rename_i hnone
    rw [List.find?_eq_none] at hnone
    constructor
    · intro h
      exact ⟨fun name hname ↦ by simpa using hnone name hname, (Except.ok.inj h).symm⟩
    · rintro ⟨-, rfl⟩
      rfl

theorem bind_eq_ok {ε α β : Type} {x : Except ε α} {f : α → Except ε β} {b : β} :
    x >>= f = .ok b ↔ ∃ a, x = .ok a ∧ f a = .ok b := by
  cases x with
  | error e => exact iff_of_false nofun nofun
  | ok a => exact ⟨fun h ↦ ⟨a, rfl, h⟩, fun ⟨_, ha, h⟩ ↦ Except.ok.inj ha ▸ h⟩

theorem mapM_checkedBlocksOf {style : Style} {types : List TypeSchema} {bodies : List (List Block)}
    (h : types.mapM (checkedBlocksOf style) = .ok bodies) :
    (∀ type ∈ types, ∀ name ∈ checkedNames style type, Rust.isIdentifier name = true) ∧
      bodies = types.map (blocksOf style) := by
  induction types generalizing bodies with
  | nil =>
    cases h
    exact ⟨nofun, rfl⟩
  | cons type more ih =>
    rw [List.mapM_cons, bind_eq_ok] at h
    obtain ⟨blocks, hfirst, h⟩ := h
    obtain ⟨bodies', hmore, h⟩ := bind_eq_ok.mp h
    obtain ⟨hchecked, rfl⟩ := checkedBlocksOf_eq_ok.mp hfirst
    obtain ⟨hall, rfl⟩ := ih hmore
    exact ⟨List.forall_mem_cons.mpr ⟨hchecked, hall⟩, (Except.ok.inj h).symm⟩

/-- Nothing is refused where all names are identifiers. -/
theorem exists_blocks {style : Style} {types : List TypeSchema}
    (h : ∀ type ∈ types, ∀ name ∈ checkedNames style type, Rust.isIdentifier name = true) :
    ∃ bs, blocks style types = .ok bs := by
  have hbodies : ∀ l : List TypeSchema, (∀ type ∈ l, type ∈ types) →
      l.mapM (checkedBlocksOf style) = .ok (l.map (blocksOf style)) := by
    intro l hl
    induction l with
    | nil => rfl
    | cons type more ih =>
      rw [List.forall_mem_cons] at hl
      rw [List.mapM_cons, checkedBlocksOf_eq_ok.mpr ⟨h type hl.1, rfl⟩, ih hl.2]
      rfl
  rw [blocks, hbodies _ fun type htype ↦ (List.mem_filter.mp htype).1]
  exact ⟨_, rfl⟩

/-- What is written where nothing is refused, in its order, and what was looked at before. -/
theorem blocks_eq_append {style : Style} {types : List TypeSchema} {bs : List Block}
    (h : blocks style types = .ok bs) :
    (∀ type ∈ types, type.descriptors ≠ [] →
      ∀ name ∈ checkedNames style type, Rust.isIdentifier name = true) ∧
      bs = (if style.header then [.header] else []) ++
        (types.filter (!·.descriptors.isEmpty)).flatMap (blocksOf style) := by
  rw [blocks, bind_eq_ok] at h
  obtain ⟨bodies, hbodies, h⟩ := h
  obtain ⟨hchecked, rfl⟩ := mapM_checkedBlocksOf hbodies
  refine ⟨fun type htype hne ↦ hchecked type (List.mem_filter.mpr ⟨htype, by simpa using hne⟩), ?_⟩
  rw [List.flatMap_def]
  exact (Except.ok.inj h).symm

/-- The blocks that are written are those of the types with descriptors. -/
theorem blocks_eq_ok {style : Style} {types : List TypeSchema} {bs : List Block}
    (h : blocks style types = .ok bs) :
    (∀ type ∈ types, type.descriptors ≠ [] →
      ∀ name ∈ checkedNames style type, Rust.isIdentifier name = true) ∧
      ∀ block, block ∈ bs ↔ (style.header = true ∧ block = .header) ∨
        ∃ type ∈ types, type.descriptors ≠ [] ∧ block ∈ blocksOf style type := by
  obtain ⟨hchecked, rfl⟩ := blocks_eq_append h
  refine ⟨hchecked, fun block ↦ ?_⟩
  rw [List.mem_append, List.mem_flatMap]
  cases style.header <;> simp [and_assoc]

/-- A companion is that of a type with descriptors, and its name is the one that is written. -/
theorem companion_mem_blocksOf {style : Style} {type : TypeSchema}
    (h : companion? style type = some name) : type.descriptors ≠ [] ∧
      ∃ functions, Block.companion name functions ∈ blocksOf style type := by
  constructor
  · intro hnil
    rw [companion?, TypeSchema.builders, buildersOf, hnil] at h
    cases h
  · exact ⟨_, List.mem_cons_of_mem _ (by rw [h]; exact List.mem_singleton.mpr rfl)⟩

theorem validTypes_eq_ok {c : Compilation} {types : List TypeSchema}
    (h : c.validTypes = .ok types) : c.isValid = true ∧ types = c.types := by
  rw [Compilation.validTypes] at h
  split at h
  · cases h
  · split at h
    · rename_i hvalid
      exact ⟨hvalid, (Except.ok.inj h).symm⟩
    · cases h

/-- What is written of a compilation is written of its types, which are valid. -/
theorem rustText_of_compilation {c : Compilation} {style : Style} {text : String}
    (h : c.rustText style = .ok text) :
    c.validTypes = .ok c.types ∧ c.isValid = true ∧
      TypeSchema.rustText style c.types = .ok text := by
  rw [Compilation.rustText, bind_eq_ok] at h
  obtain ⟨types, htypes, h⟩ := h
  obtain ⟨hvalid, rfl⟩ := validTypes_eq_ok htypes
  exact ⟨htypes, hvalid, h⟩

/-- What is written is written of the blocks of all types. -/
theorem rustText_eq_ok {c : Compilation} {style : Style} {text : String}
    (h : c.rustText style = .ok text) :
    ∃ bs, blocks style c.types = .ok bs ∧ text = join (piecesOf style bs) := by
  obtain ⟨-, -, h⟩ := rustText_of_compilation h
  rw [TypeSchema.rustText, bind_eq_ok] at h
  obtain ⟨bs, hblocks, h⟩ := h
  refine ⟨bs, hblocks, ?_⟩
  rw [join_piecesOf]
  exact (Except.ok.inj h).symm

section

variable {sources : List Source} {leaves : LeafTable} {selection : Selection} {style : Style}
  {bs : List Block}

/-- The names that come out illegal are the companions that type name and suffix make a keyword. -/
theorem illegal_iff (h : blocks style (compile sources leaves selection).types = .ok bs) :
    identifier name ∈ piecesOf style bs ∧ ¬ Rust.IsLegal name ↔
      (∃ type ∈ (compile sources leaves selection).types, companion? style type = some name) ∧
        name ∈ Rust.keywords := by
  obtain ⟨hchecked, hblocks⟩ := blocks_eq_ok h
  -- the name of a companion is looked at and then written as it is
  have hcompanion {type : TypeSchema} (htype : type ∈ (compile sources leaves selection).types)
      (hname : companion? style type = some name) : ¬ Rust.IsLegal name ↔ name ∈ Rust.keywords := by
    have hidentifier : Rust.isIdentifier name = true := by
      refine hchecked type htype (companion_mem_blocksOf hname).1 name ?_
      rw [checkedNames, hname]
      simp
    rw [Rust.isLegal_iff_of_isIdentifier hidentifier, Decidable.not_not]
  rw [piecesOf, identifier_mem_intercalate]
  constructor
  · rintro ⟨⟨block, hblock, hname⟩, hillegal⟩
    rcases (hblocks block).mp hblock with ⟨-, rfl⟩ | ⟨type, htype, hne, hblock⟩
    · rw [Block.pieces, List.mem_singleton] at hname
      cases hname
    · have hmade : ∀ descriptor ∈ type.descriptors, _ :=
        fun _ ↦ exists_field_of_mem_descriptors htype
      have hof := isLegal_of_mem_blocksOf hmade (hchecked type htype hne) hblock hname
      have hname := hof.resolve_left hillegal
      exact ⟨⟨type, htype, hname⟩, (hcompanion htype hname).mp hillegal⟩
  · rintro ⟨⟨type, htype, hname⟩, hkeyword⟩
    obtain ⟨hne, functions, hblock⟩ := companion_mem_blocksOf hname
    refine ⟨⟨_, (hblocks _).mpr (.inr ⟨type, htype, hne, hblock⟩), ?_⟩,
      (hcompanion htype hname).mpr hkeyword⟩
    exact identifier_mem_companion.mpr (.inl rfl)

end

/-- **When the names are legal.** Every name in the text that is written for a compilation is a
legal identifier, unless a type name and the suffix together are a keyword: then the companion of
that type is the one that is not. -/
theorem rustText_isLegal_iff (sources : List Source) (leaves : LeafTable) (selection : Selection)
    (style : Style) (text : String)
    (h : (compile sources leaves selection).rustText style = .ok text) :
    ∃ bs, blocks style (compile sources leaves selection).types = .ok bs ∧
      text = join (piecesOf style bs) ∧
      ((∀ name, identifier name ∈ piecesOf style bs → Rust.IsLegal name) ↔
        ∀ type ∈ (compile sources leaves selection).types, ∀ name,
          companion? style type = some name → name ∉ Rust.keywords) ∧
      ∀ name, identifier name ∈ piecesOf style bs ∧ ¬ Rust.IsLegal name ↔
        (∃ type ∈ (compile sources leaves selection).types, companion? style type = some name) ∧
          name ∈ Rust.keywords := by
  obtain ⟨bs, hblocks, htext⟩ := rustText_eq_ok h
  refine ⟨bs, hblocks, htext, ⟨fun hlegal type htype name hname hkeyword ↦ ?_,
    fun hnone name hname ↦ ?_⟩, fun name ↦ illegal_iff hblocks⟩
  · obtain ⟨hmem, hillegal⟩ := (illegal_iff hblocks).mpr ⟨⟨type, htype, hname⟩, hkeyword⟩
    exact hillegal (hlegal name hmem)
  · refine Classical.byContradiction fun hillegal ↦ ?_
    obtain ⟨⟨type, htype, hcompanion⟩, hkeyword⟩ := (illegal_iff hblocks).mp ⟨hname, hillegal⟩
    exact hnone type htype name hcompanion hkeyword

/-- A type `ty` with the suffix `pe`: its companion is written as a keyword. -/
theorem rustText_isLegal_iff_type :
    ∃ text, (compile [⟨.inline, "@Schema class ty \x7b a: B \x7d"⟩] ⟨[]⟩ .marked).rustText
        ⟨"pe", true, true⟩ = .ok text ∧
      ∃ bs, text = join (piecesOf ⟨"pe", true, true⟩ bs) ∧
        identifier "type" ∈ piecesOf ⟨"pe", true, true⟩ bs ∧ ¬ Rust.IsLegal "type" := by
  have hok : ((compile [⟨.inline, "@Schema class ty \x7b a: B \x7d"⟩] ⟨[]⟩ .marked).rustText
      ⟨"pe", true, true⟩).isOk = true := by decide +kernel
  cases htext : (compile [⟨.inline, "@Schema class ty \x7b a: B \x7d"⟩] ⟨[]⟩ .marked).rustText
      ⟨"pe", true, true⟩ with
  | error e =>
    rw [htext] at hok
    cases hok
  | ok text =>
    obtain ⟨bs, -, hjoin, -, hillegal⟩ := rustText_isLegal_iff _ _ _ _ text htext
    exact ⟨text, rfl, bs, hjoin, (hillegal "type").mpr (by decide +kernel)⟩

end Generated

end FieldPaths
