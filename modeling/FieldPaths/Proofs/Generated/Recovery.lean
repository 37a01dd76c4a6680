import FieldPaths.Proofs.Generated.Meaning

/-!
# What can be recovered from generated Rust

Generated text tells of every type with descriptors its name, the names of its fields and, of these,
the ones that have a builder, all in their order (`TypeSchema.outline`). It tells nothing else, and
nothing of this is lost: the text and the outlines of the types determine each other.

What the text does not tell is which of two fields of one name the builder belongs to. There can be
two such fields, since conflicts between descriptors are not looked for. Where the fields of a name
all have a builder or all have none, nothing is left open.

The text is taken apart only as far as into its items. No definition can be read where the name of
a companion is a keyword, but there are items all the same, and that is enough to tell types apart.
-/

namespace FieldPaths

/-- What generated text tells of a type. -/
structure Outline where
  name : String
  /-- The names of the fields with descriptors. -/
  fields : List String
  /-- Of these, the ones with a builder. -/
  composites : List String
deriving Repr, DecidableEq

/-- The outline of a type. -/
def TypeSchema.outline (type : TypeSchema) : Outline where
  name := type.name
  fields := type.descriptors.map (·.field)
  composites := (type.descriptors.filter (·.isComposite)).map (·.field)

namespace Generated

open Rust

/-! ## Blocks from outlines -/

/-- The constant of a field. -/
def fieldConstant (field : String) : FieldConstant := ⟨descriptorName field, field⟩

/-- The function of a field in the companion of the type `owner`. -/
def fieldFunction (owner field : String) : PathFunction :=
  ⟨descriptorName field, subpathParam, identifier owner⟩

/-- The blocks of a type with a given outline. -/
def outlineBlocks (style : Style) (outline : Outline) : List Block :=
  .constants (identifier outline.name) (outline.fields.map fieldConstant) ::
    if outline.composites.isEmpty then []
    else [.companion (companionName outline.name style.suffix)
      (outline.composites.map (fieldFunction outline.name))]

section

variable {leaves : LeafTable} {type : TypeSchema}
  (hmade : ∀ descriptor ∈ type.descriptors,
    ∃ field : Field Span, descriptor = field.descriptor leaves)

include hmade

theorem constants_eq_map_fields : type.constants = type.outline.fields.map fieldConstant := by
  rw [TypeSchema.constants, constantsOf, TypeSchema.outline, List.map_map]
  refine List.map_congr_left fun descriptor hdescriptor ↦ ?_
  obtain ⟨field, rfl⟩ := hmade descriptor hdescriptor
  rfl

theorem builders_eq_map_composites : type.builders = type.outline.composites.map fun field ↦
    ⟨descriptorName field, subpathParam, field, field ++ pathSeparator⟩ := by
  rw [TypeSchema.builders, buildersOf, TypeSchema.outline, List.map_map]
  generalize type.descriptors = descriptors at hmade
  induction descriptors with
  | nil => rfl
  | cons descriptor more ih =>
    rw [List.forall_mem_cons] at hmade
    obtain ⟨⟨field, rfl⟩, hmore⟩ := hmade
    cases hbuilder : (field.descriptor leaves).builder with
    | none =>
      have hleaf : ¬ (field.descriptor leaves).isComposite = true := by
        simp [Descriptor.isComposite, hbuilder]
      rw [List.filterMap_cons_none hbuilder, List.filter_cons_of_neg hleaf, ih hmore]
    | some builder =>
      have hcomposite : (field.descriptor leaves).isComposite = true := by
        simp [Descriptor.isComposite, hbuilder]
      rw [List.filterMap_cons_some hbuilder, List.filter_cons_of_pos hcomposite, ih hmore,
        List.map_cons, Field.builder_eq hbuilder]
      rfl

/-- What is written of a type is decided by its outline. -/
theorem blocksOf_eq_outlineBlocks (style : Style) :
    blocksOf style type = outlineBlocks style type.outline := by
  have hempty : type.builders.isEmpty = type.outline.composites.isEmpty := by
    rw [builders_eq_map_composites hmade, List.isEmpty_map]
  rw [blocksOf, outlineBlocks, constants_eq_map_fields hmade, companion?, hempty]
  split
  · rfl
  · rw [builders_eq_map_composites hmade, List.map_map]
    rfl

end

/-! ## Items of a block -/

theorem quoted_injective : Function.Injective quoted := by
  intro text text' h
  have hread := congrArg unquoted? h
  rw [unquoted?_quoted, unquoted?_quoted] at hread
  exact Option.some.inj hread

theorem constantTrees_injective :
    Function.Injective fun field ↦ constantTrees (fieldConstant field) := by
  intro field field' h
  simp only [constantTrees, fieldConstant, List.cons.injEq, Tree.literal.injEq] at h
  exact quoted_injective h.2.2.2.2.2.2.2.2.2.1

theorem functionTrees_injective (owner separator : String) :
    Function.Injective fun field ↦ functionTrees (fieldFunction owner field) separator := by
  intro field field' h
  simp only [functionTrees, fieldFunction, List.cons.injEq, Tree.ident.injEq] at h
  exact descriptorName_injective h.2.2.1

/-- Items can be told apart in what they make together. -/
theorem eq_of_flatten_eq {items items' : List (List Tree)} (h : items.flatten = items'.flatten)
    (hitems : ∀ item ∈ items, IsItem item) (hitems' : ∀ item ∈ items', IsItem item) :
    items = items' := by
  rw [← itemsOf_flatten hitems, h, itemsOf_flatten hitems']

/-- The members of a block can be told apart if they can one by one. -/
theorem eq_of_flatten_map_eq {α : Type} {trees : α → List Tree} (hinj : Function.Injective trees)
    (hitem : ∀ a, IsItem (trees a)) {l l' : List α}
    (h : (l.map trees).flatten = (l'.map trees).flatten) : l = l' :=
  List.map_injective_iff.mpr hinj
    (eq_of_flatten_eq h (List.forall_mem_map.mpr fun a _ ↦ hitem a)
      (List.forall_mem_map.mpr fun a _ ↦ hitem a))

/-- The item with the members of `word`. -/
def implItem (style : Style) (lint word : String) (content : List Tree) : List Tree :=
  lintTrees style lint ++ [.ident "impl", .ident word, .braces content]

theorem implItem_inj {style : Style} {lint word word' : String} {content content' : List Tree}
    (h : implItem style lint word content = implItem style lint word' content') :
    word = word' ∧ content = content' := by
  have hitem := List.append_cancel_left h
  simp only [Tree.braces, List.cons.injEq, Tree.ident.injEq, Tree.group.injEq] at hitem
  exact ⟨hitem.2.1, hitem.2.2.1.2⟩

/-! ## Items of types -/

/-- The item with the constants of a type. -/
def constantsItem (style : Style) (outline : Outline) : List Tree :=
  implItem style "non_upper_case_globals" (identifier outline.name)
    (outline.fields.map fun field ↦ constantTrees (fieldConstant field)).flatten

/-- The items of the companion of a type, if it has one. -/
def companionItems (style : Style) (outline : Outline) : List (List Tree) :=
  if outline.composites.isEmpty then []
  else
    let name := companionName outline.name style.suffix
    [[.ident "pub", .ident "struct", .ident name, .punct ';' false],
      implItem style "non_snake_case" name (outline.composites.map fun field ↦
        functionTrees (fieldFunction outline.name field) pathSeparator).flatten]

theorem items_outlineBlocks (style : Style) (outline : Outline) :
    (outlineBlocks style outline).flatMap (·.items style)
      = constantsItem style outline :: companionItems style outline := by
  rw [outlineBlocks, List.flatMap_cons, Block.items, List.map_map, List.singleton_append]
  refine congrArg (constantsItem style outline :: ·) ?_
  rw [companionItems]
  split
  · rfl
  · rw [List.flatMap_singleton, Block.items, List.map_map]
    rfl

theorem constantsItem_inj {style : Style} {outline outline' : Outline}
    (h : constantsItem style outline = constantsItem style outline')
    (hname : IsWord outline.name) (hname' : IsWord outline'.name) :
    outline.name = outline'.name ∧ outline.fields = outline'.fields := by
  obtain ⟨howner, hcontent⟩ := implItem_inj h
  refine ⟨?_, ?_⟩
  · rw [← unraw_identifier hname, howner, unraw_identifier hname']
  · exact eq_of_flatten_map_eq constantTrees_injective (fun _ ↦ isItem_constantTrees _) hcontent

/-- The items do not go on with a companion. -/
def StartsType (items : List (List Tree)) : Prop :=
  ∀ item ∈ items.head?, item.head? ≠ some (.ident "pub")

theorem startsType_items (style : Style) (outlines : List Outline) :
    StartsType (outlines.flatMap fun outline ↦
      constantsItem style outline :: companionItems style outline) := by
  cases outlines with
  | nil => nofun
  | cons outline more =>
    intro item hitem
    obtain rfl := Option.some.inj hitem
    rw [constantsItem, implItem, lintTrees]
    split <;> simp [Tree.attr]

/-- Where a companion ends is seen from what comes next. -/
theorem companionItems_append_inj {style : Style} {outline outline' : Outline}
    {rest rest' : List (List Tree)}
    (h : companionItems style outline ++ rest = companionItems style outline' ++ rest')
    (hname : outline.name = outline'.name) (hrest : StartsType rest) (hrest' : StartsType rest') :
    outline.composites = outline'.composites ∧ rest = rest' := by
  rw [companionItems, companionItems] at h
  by_cases hnone : outline.composites.isEmpty = true <;>
    by_cases hnone' : outline'.composites.isEmpty = true
  · rw [if_pos hnone, if_pos hnone'] at h
    exact ⟨by rw [List.isEmpty_iff.mp hnone, List.isEmpty_iff.mp hnone'], h⟩
  · rw [if_pos hnone, if_neg hnone', List.nil_append] at h
    exact absurd rfl (hrest _ (by rw [h]; rfl))
  · rw [if_neg hnone, if_pos hnone', List.nil_append] at h
    exact absurd rfl (hrest' _ (by rw [← h]; rfl))
  · rw [if_neg hnone, if_neg hnone', hname] at h
    obtain ⟨-, h⟩ := List.cons.inj h
    obtain ⟨himpl, hmore⟩ := List.cons.inj h
    exact ⟨eq_of_flatten_map_eq (functionTrees_injective _ _) (fun _ ↦ isItem_functionTrees _ _)
      (implItem_inj himpl).2, hmore⟩

/-- **The items of types tell their outlines.** -/
theorem eq_of_items_eq {style : Style} {outlines outlines' : List Outline}
    (hnames : ∀ outline ∈ outlines, IsWord outline.name)
    (hnames' : ∀ outline ∈ outlines', IsWord outline.name)
    (h : (outlines.flatMap (outlineBlocks style)).flatMap (·.items style)
      = (outlines'.flatMap (outlineBlocks style)).flatMap (·.items style)) :
    outlines = outlines' := by
  simp only [List.flatMap_assoc, items_outlineBlocks] at h
  induction outlines generalizing outlines' with
  | nil =>
    cases outlines' with
    | nil => rfl
    | cons outline' more' => cases h
  | cons outline more ih =>
    cases outlines' with
    | nil => cases h
    | cons outline' more' =>
      rw [List.forall_mem_cons] at hnames hnames'
      rw [List.flatMap_cons, List.flatMap_cons, List.cons_append, List.cons_append] at h
      obtain ⟨hconstants, hothers⟩ := List.cons.inj h
      obtain ⟨hname, hfields⟩ := constantsItem_inj hconstants hnames.1 hnames'.1
      obtain ⟨hcomposites, hmore⟩ := companionItems_append_inj hothers hname
        (startsType_items style more) (startsType_items style more')
      obtain ⟨name, fields, composites⟩ := outline
      obtain ⟨name', fields', composites'⟩ := outline'
      obtain rfl : name = name' := hname
      obtain rfl : fields = fields' := hfields
      obtain rfl : composites = composites' := hcomposites
      rw [ih hnames.2 hnames'.2 hmore]

/-! ## Texts -/

/-- The text for types with given outlines. -/
def outlineText (style : Style) (outlines : List Outline) : String :=
  "\n\n".intercalate (((if style.header then [Block.header] else []) ++
    outlines.flatMap (outlineBlocks style)).map (·.text style))

/-- The names in an outline are those of a type that can be written. -/
structure IsWritable (style : Style) (outline : Outline) : Prop where
  word : IsWord outline.name
  named : ∀ block ∈ outlineBlocks style outline, block.IsNamed ∧ block ≠ .header

/-- Texts for different outlines are different. -/
theorem outlineText_inj {style : Style} {outlines outlines' : List Outline}
    (h : ∀ outline ∈ outlines, IsWritable style outline)
    (h' : ∀ outline ∈ outlines', IsWritable style outline)
    (htext : outlineText style outlines = outlineText style outlines') : outlines = outlines' := by
  have hread {outlines : List Outline} (h : ∀ outline ∈ outlines, IsWritable style outline) :
      (Tree.read? (outlineText style outlines)).map itemsOf
        = some ((outlines.flatMap (outlineBlocks style)).flatMap (·.items style)) := by
    refine read?_blocks fun block hblock ↦ ?_
    obtain ⟨outline, houtline, hblock⟩ := List.mem_flatMap.mp hblock
    exact (h outline houtline).named block hblock
  have hitems := hread h
  rw [htext, hread h'] at hitems
  exact eq_of_items_eq (fun outline houtline ↦ (h outline houtline).word)
    (fun outline houtline ↦ (h' outline houtline).word) (Option.some.inj hitems).symm

/-- The text for some types is that for the outlines of those with descriptors. -/
theorem rustText_eq_outlineText {style : Style} {leaves : LeafTable} {types : List TypeSchema}
    {text : String} (hmade : ∀ type ∈ types, ∀ descriptor ∈ type.descriptors,
      ∃ field : Field Span, descriptor = field.descriptor leaves)
    (h : TypeSchema.rustText style types = .ok text) :
    let outlines := (types.filter (!·.descriptors.isEmpty)).map TypeSchema.outline
    text = outlineText style outlines ∧ ∀ outline ∈ outlines, IsWritable style outline := by
  rw [TypeSchema.rustText, bind_eq_ok] at h
  obtain ⟨bs, hblocks, h⟩ := h
  obtain rfl := Except.ok.inj h
  obtain ⟨hchecked, rfl⟩ := blocks_eq_append hblocks
  have hsame : ∀ type ∈ types.filter (!·.descriptors.isEmpty),
      blocksOf style type = outlineBlocks style type.outline := fun type htype ↦
    blocksOf_eq_outlineBlocks (hmade type (List.mem_filter.mp htype).1) style
  refine ⟨?_, List.forall_mem_map.mpr fun type htype ↦ ?_⟩
  · rw [outlineText, List.flatMap_map, List.flatMap_congr hsame]
  · obtain ⟨hmem, hne⟩ := List.mem_filter.mp htype
    have hnames := hchecked type hmem (by simpa using hne)
    refine ⟨(isIdentifier_iff.mp (hnames type.name (by simp [checkedNames]))).1, ?_⟩
    rw [← hsame type htype]
    exact isNamed_of_mem_blocksOf (hmade type hmem) hnames

/-! ## Fields and builders -/

/-- Which of two fields has the builder is left open only where they have one name. -/
theorem eq_of_fst_eq {ps qs : List (String × Bool)} (hfst : ps.map (·.1) = qs.map (·.1))
    (hsnd : (ps.filter (·.2)).map (·.1) = (qs.filter (·.2)).map (·.1))
    (hps : ∀ p ∈ ps, ∀ p' ∈ ps, p.1 = p'.1 → p.2 = p'.2) : ps = qs := by
  have hcount (ps : List (String × Bool)) (name : String) : (ps.map (·.1)).count name
      = ((ps.filter (·.2)).map (·.1)).count name + ((ps.filter (!·.2)).map (·.1)).count name := by
    simp only [List.count_eq_countP, List.countP_map]
    exact List.countP_eq_countP_filter_add ..
  have hsame : ∀ p ∈ ps, ∀ q ∈ qs, p.1 = q.1 → p.2 = q.2 := by
    rintro ⟨name, b⟩ hp ⟨_, c⟩ hq rfl
    cases b with
    | false =>
      cases c with
      | false => rfl
      | true =>
        have hmem : name ∈ (ps.filter (·.2)).map (·.1) := by
          rw [hsnd]
          exact List.mem_map.mpr ⟨(name, true), List.mem_filter.mpr ⟨hq, rfl⟩, rfl⟩
        obtain ⟨p', hp', hname⟩ := List.mem_map.mp hmem
        obtain ⟨hp', htrue⟩ := List.mem_filter.mp hp'
        exact (hps _ hp p' hp' hname.symm).trans htrue
    | true =>
      cases c with
      | true => rfl
      | false =>
        -- all of the name are counted on the one side, and one is not on the other
        have hnone : ((ps.filter (!·.2)).map (·.1)).count name = 0 := by
          refine List.count_eq_zero.mpr fun hmem ↦ ?_
          obtain ⟨p', hp', hname⟩ := List.mem_map.mp hmem
          obtain ⟨hp', hfalse⟩ := List.mem_filter.mp hp'
          rw [← hps _ hp p' hp' hname.symm] at hfalse
          cases hfalse
        have hone : 0 < ((qs.filter (!·.2)).map (·.1)).count name :=
          List.count_pos_iff.mpr
            (List.mem_map.mpr ⟨(name, false), List.mem_filter.mpr ⟨hq, rfl⟩, rfl⟩)
        have hall := hcount ps name
        rw [hfst, hsnd, hcount qs name] at hall
        omega
  refine List.ext_getElem (by simpa using congrArg List.length hfst) fun i hi hi' ↦ ?_
  have hname : ps[i].1 = qs[i].1 := by
    have hget := congrArg (·[i]?) hfst
    simpa [hi, hi'] using hget
  exact Prod.ext hname (hsame _ (List.getElem_mem hi) _ (List.getElem_mem hi') hname)

/-- The fields of a type, each with whether it has a builder. -/
theorem fields_eq_of_outline_eq {type type' : TypeSchema} (h : type.outline = type'.outline)
    (hclear : ∀ d ∈ type.descriptors, ∀ d' ∈ type.descriptors,
      d.field = d'.field → d.isComposite = d'.isComposite) :
    type.descriptors.map (fun d ↦ (d.field, d.isComposite))
      = type'.descriptors.map (fun d ↦ (d.field, d.isComposite)) := by
  obtain ⟨-, hfields, hcomposites⟩ := Outline.mk.inj h
  refine eq_of_fst_eq ?_ ?_ ?_
  · rw [List.map_map, List.map_map]
    exact hfields
  · rw [List.filter_map, List.filter_map, List.map_map, List.map_map]
    exact hcomposites
  · refine List.forall_mem_map.mpr fun d hd ↦ List.forall_mem_map.mpr fun d' hd' ↦ ?_
    exact hclear d hd d' hd'

/-! ## Recovery -/

/-- **Generated text tells the outlines of its types.** The texts for the types of two compilations
are the same exactly if the types with descriptors have the same names in the same order, and each
the same fields and the same fields with a builder, in the same order. So where the fields of a
name in a type all have a builder or all have none, it is told of every field. -/
theorem rustText_eq_iff (style : Style) (sources sources' : List Source)
    (leaves leaves' : LeafTable) (selection selection' : Selection) {text text' : String}
    (h : TypeSchema.rustText style (compile sources leaves selection).types = .ok text)
    (h' : TypeSchema.rustText style (compile sources' leaves' selection').types = .ok text') :
    let types := (compile sources leaves selection).types.filter (!·.descriptors.isEmpty)
    let types' := (compile sources' leaves' selection').types.filter (!·.descriptors.isEmpty)
    (text = text' ↔ types.map TypeSchema.outline = types'.map TypeSchema.outline) ∧
      ((∀ type ∈ types, ∀ d ∈ type.descriptors, ∀ d' ∈ type.descriptors,
          d.field = d'.field → d.isComposite = d'.isComposite) →
        text = text' →
          types.map (fun type ↦ (type.name, type.descriptors.map fun d ↦ (d.field, d.isComposite)))
            = types'.map (fun type ↦
                (type.name, type.descriptors.map fun d ↦ (d.field, d.isComposite)))) := by
  intro types types'
  obtain ⟨htext, hwritable⟩ := rustText_eq_outlineText
    (fun _ htype _ hdescriptor ↦ exists_field_of_mem_descriptors htype hdescriptor) h
  obtain ⟨htext', hwritable'⟩ := rustText_eq_outlineText
    (fun _ htype _ hdescriptor ↦ exists_field_of_mem_descriptors htype hdescriptor) h'
  have hinj (heq : text = text') :
      types.map TypeSchema.outline = types'.map TypeSchema.outline := by
    rw [htext, htext'] at heq
    exact outlineText_inj hwritable hwritable' heq
  refine ⟨⟨hinj, fun houtlines ↦ ?_⟩, fun hclear heq ↦ ?_⟩
  · rw [htext, htext']
    exact congrArg (outlineText style) houtlines
  · have houtlines := hinj heq
    rw [← List.forall₂_eq_eq_eq, List.forall₂_map_left_iff, List.forall₂_map_right_iff]
      at houtlines ⊢
    refine ((List.forall₂_and_left types types').mpr ⟨hclear, houtlines⟩).imp fun type type' hboth ↦ ?_
    exact Prod.ext (congrArg Outline.name hboth.2) (fields_eq_of_outline_eq hboth.2 hboth.1)

/-- Two texts for one class, with other types and with fields that get nothing. -/
theorem rustText_eq_iff_other_types :
    let sources : List Source := [⟨.inline, "@Schema class A \x7b a: int b: B \x7d"⟩]
    let sources' : List Source :=
      [⟨.inline, "class C \x7b\x7d @Schema class A \x7b a: String final c: int b: C \x7d"⟩]
    ∃ text, TypeSchema.rustText {} (compile sources {} .marked).types = .ok text ∧
      TypeSchema.rustText {} (compile sources' {} .marked).types = .ok text ∧
      ((compile sources {} .marked).types.filter (!·.descriptors.isEmpty)).map (fun type ↦
          (type.name, type.descriptors.map fun d ↦ (d.field, d.isComposite)))
        = ((compile sources' {} .marked).types.filter (!·.descriptors.isEmpty)).map (fun type ↦
          (type.name, type.descriptors.map fun d ↦ (d.field, d.isComposite))) := by
  intro sources sources'
  have hok : (TypeSchema.rustText {} (compile sources {} .marked).types).isOk = true ∧
      (TypeSchema.rustText {} (compile sources' {} .marked).types).isOk = true := by decide +kernel
  obtain ⟨text, h⟩ := exists_ok_of_isOk hok.1
  obtain ⟨text', h'⟩ := exists_ok_of_isOk hok.2
  obtain ⟨htext, hfields⟩ := rustText_eq_iff {} sources sources' {} {} .marked .marked h h'
  obtain rfl := htext.mpr (by decide +kernel)
  exact ⟨text, h, h', hfields (by decide +kernel) rfl⟩

/-- Two classes with one text, where the builder belongs to the second field of a name and to the
first. -/
theorem rustText_eq_of_repeated_field :
    let sources : List Source := [⟨.inline, "@Schema class A \x7b a: int a: B \x7d"⟩]
    let sources' : List Source := [⟨.inline, "@Schema class A \x7b a: B a: int \x7d"⟩]
    (∃ text, TypeSchema.rustText {} (compile sources {} .marked).types = .ok text ∧
      TypeSchema.rustText {} (compile sources' {} .marked).types = .ok text) ∧
      ((compile sources {} .marked).types.filter (!·.descriptors.isEmpty)).map (fun type ↦
          (type.name, type.descriptors.map fun d ↦ (d.field, d.isComposite)))
        ≠ ((compile sources' {} .marked).types.filter (!·.descriptors.isEmpty)).map (fun type ↦
          (type.name, type.descriptors.map fun d ↦ (d.field, d.isComposite))) := by
  intro sources sources'
  have hok : (TypeSchema.rustText {} (compile sources {} .marked).types).isOk = true ∧
      (TypeSchema.rustText {} (compile sources' {} .marked).types).isOk = true := by decide +kernel
  have houtlines :
      ((compile sources {} .marked).types.filter (!·.descriptors.isEmpty)).map TypeSchema.outline
        = ((compile sources' {} .marked).types.filter (!·.descriptors.isEmpty)).map
          TypeSchema.outline := by decide +kernel
  obtain ⟨text, h⟩ := exists_ok_of_isOk hok.1
  obtain ⟨text', h'⟩ := exists_ok_of_isOk hok.2
  have htext := (rustText_eq_outlineText
    (fun _ htype _ hdescriptor ↦ exists_field_of_mem_descriptors htype hdescriptor) h).1
  have htext' := (rustText_eq_outlineText
    (fun _ htype _ hdescriptor ↦ exists_field_of_mem_descriptors htype hdescriptor) h').1
  obtain rfl : text = text' := by rw [htext, htext', houtlines]
  exact ⟨⟨text, h, h'⟩, by decide +kernel⟩

end Generated

end FieldPaths
