import FieldPaths.Proofs.Declaration
import FieldPaths.Proofs.Expansion.Fields
import FieldPaths.Rust.Scan

/-!
# An expansion and generated text agree

The same descriptors are made into items twice: as trees behind a struct, and as text from a schema
of the same fields. Both are taken for what they define. The definitions are the same one by one,
but that a function has its text in it here and refers to a constant there.

A struct may be one that has its mark of the raw form, and a schema has none. Without the marks the
names are the same, and the name of a companion is none that Rust has taken, because nothing that
it has taken ends like that.
-/

namespace FieldPaths

namespace Rust

open Generated

/-- The name of a companion is free. -/
theorem isIdentifier_append_paths {name : String} (h : isIdentifier name = true) :
    isIdentifier (name ++ "Paths") = true ∧ name ++ "Paths" ∉ keywords := by
  obtain ⟨⟨c, more, hname, hstart, hmore⟩, -⟩ := isIdentifier_iff.mp h
  have hlist : (name ++ "Paths").toList = c :: (more ++ "Paths".toList) := by
    rw [String.toList_append, hname, List.cons_append]
  have hfree := append_paths_not_mem name
  rw [List.mem_append, not_or] at hfree
  have hword : IsWord (name ++ "Paths") := by
    refine ⟨c, more ++ "Paths".toList, hlist, hstart, ?_⟩
    intro d hd
    rcases List.mem_append.mp hd with hd | hd
    · exact hmore d hd
    · have hletters : ∀ d ∈ "Paths".toList, d.isAlphanum = true :=
        List.all_iff_forall_prop.mp (by decide)
      exact .inr (hletters d hd)
  exact ⟨isIdentifier_iff.mpr ⟨hword, hfree.2⟩, hfree.1⟩

theorem append_paths_ne_self (name : String) : name ++ "Paths" ≠ name := by
  intro heq
  have hlength := congrArg (fun text : String ↦ text.toList.length) heq
  simp at hlength

/-! ## The schema of a struct -/

/-- A struct whose descriptors can be written in Rust. -/
structure StructItem.IsPlain (item : StructItem) : Prop where
  /-- Its fields have names if there are any. -/
  fields : ∀ content, item.fields ≠ .tuple content
  name : isIdentifier (unraw item.name) = true
  fieldNames : ∀ field ∈ item.fields.list, isIdentifier (unraw field.name) = true
  distinct : (item.fields.list.map fun field ↦ unraw field.name).Nodup

/-- Whether fields have names if there are any. -/
def Fields.isNamed : Fields → Bool
  | .tuple _ => false
  | _ => true

theorem Fields.isNamed_iff {fields : Fields} :
    fields.isNamed = true ↔ ∀ content, fields ≠ .tuple content := by
  cases fields <;> simp [isNamed]

namespace StructItem

instance (item : StructItem) : Decidable item.IsPlain :=
  decidable_of_iff (item.fields.isNamed = true ∧ isIdentifier (unraw item.name) = true ∧
      (∀ field ∈ item.fields.list, isIdentifier (unraw field.name) = true) ∧
      (item.fields.list.map fun field ↦ unraw field.name).Nodup)
    ⟨fun h ↦ ⟨Fields.isNamed_iff.mp h.1, h.2.1, h.2.2.1, h.2.2.2⟩,
      fun h ↦ ⟨Fields.isNamed_iff.mpr h.fields, h.name, h.fieldNames, h.distinct⟩⟩

/-- The descriptors of a struct as those of a type that is declared somewhere. -/
def schema (item : StructItem) (options : Options) (location : Span) : TypeSchema where
  name := item.declaration.name
  kind := item.declaration.kind
  location := location
  isValid := (item.synthesis options).isValid
  descriptors := (item.synthesis options).descriptors

variable {item : StructItem} {options : Options} {location : Span} {style : Style}

@[simp] theorem schema_name : (item.schema options location).name = unraw item.name := by
  change item.declaration.name = _
  rw [declaration]
  split <;> rfl

theorem schema_eq : item.schema options location
    = (item.declaration.mapLocation fun _ ↦ location).schema ⟨options.leaves⟩ := by
  rw [Declaration.schema, Declaration.synthesis_mapLocation, Synthesis.isValid_mapLocation]
  rfl

namespace IsPlain

variable (h : item.IsPlain)

include h

theorem kind_eq : item.declaration.kind = .cls := by
  rw [declaration]
  cases hfields : item.fields with
  | tuple content => exact absurd hfields (h.fields content)
  | named fields hasTrailingComma => rfl
  | unit => rfl

theorem exists_field {descriptor : Descriptor}
    (hdescriptor : descriptor ∈ (item.synthesis options).descriptors) :
    ∃ field : Field Unit, descriptor = field.descriptor ⟨options.leaves⟩ ∧
      isIdentifier field.name = true := by
  rw [descriptors_of_cls h.kind_eq, List.mem_map] at hdescriptor
  obtain ⟨field, hfield, rfl⟩ := hdescriptor
  exact ⟨field.lowered, rfl, h.fieldNames field (List.mem_filter.mp hfield).1⟩

theorem plain_name : unraw (unraw item.name) = unraw item.name :=
  unraw_of_isWord (isIdentifier_iff.mp h.name).1

theorem companionName_schema (hstyle : style.suffix = "Paths") :
    Rust.companionName (item.schema options location).name style.suffix
      = unraw item.name ++ "Paths" := by
  rw [Rust.companionName, hstyle, schema_name, h.plain_name]

theorem unraw_companionName (hoptions : options.companion = none) :
    unraw (item.companionName options) = unraw item.name ++ "Paths" := by
  rw [companionName, hoptions, Option.getD_none, Rust.companionName, h.plain_name]
  exact unraw_of_isWord (isIdentifier_iff.mp (isIdentifier_append_paths h.name).1).1

/-- All names that are looked at are identifiers. -/
theorem isIdentifier_of_mem_checkedNames (hstyle : style.suffix = "Paths") :
    ∀ name ∈ checkedNames style (item.schema options location), isIdentifier name = true := by
  intro name hname
  rw [checkedNames, List.mem_append, List.mem_cons, List.mem_map] at hname
  rcases hname with (rfl | ⟨descriptor, hdescriptor, rfl⟩) | hcompanion
  · rw [schema_name]
    exact h.name
  · obtain ⟨field, rfl, hfield⟩ := h.exists_field hdescriptor
    exact hfield
  · rw [Option.mem_toList] at hcompanion
    rw [companion?_eq hcompanion, h.companionName_schema hstyle]
    exact (isIdentifier_append_paths h.name).1

theorem hasKeywordCompanion_eq (hstyle : style.suffix = "Paths") :
    hasKeywordCompanion style (item.schema options location) = false := by
  rw [hasKeywordCompanion, Option.any_eq_false]
  intro name hname
  rw [companion?_eq hname, h.companionName_schema hstyle, isKeyword]
  simpa using (isIdentifier_append_paths h.name).2

theorem isDistinct (hstyle : style.suffix = "Paths") :
    IsDistinct ⟨options.leaves⟩ style [item.schema options location] where
  made := by
    intro type htype descriptor hdescriptor
    obtain rfl := List.mem_singleton.mp htype
    obtain ⟨field, hfield, -⟩ := h.exists_field hdescriptor
    exact ⟨field.mapLocation fun _ ↦ location, hfield⟩
  plain := by
    intro type htype
    obtain rfl := List.mem_singleton.mp htype
    rw [schema_name]
    exact h.plain_name
  names := List.nodup_singleton _
  constants := by
    intro type htype
    obtain rfl := List.mem_singleton.mp htype
    rw [schema_eq]
    apply nodup_constants_schema
    intro _
    rw [Declaration.eligibleFields_mapLocation, List.map_map]
    have hnames : (item.declaration.fields.map (·.name)).Nodup := by
      rw [fields_declaration_of_cls h.kind_eq, List.map_map]
      exact h.distinct
    exact hnames.sublist (List.filter_sublist.map _)
  companions := by
    intro type htype name hname other hother
    obtain rfl := List.mem_singleton.mp htype
    obtain rfl := List.mem_singleton.mp hother
    rw [companion?_eq hname, h.companionName_schema hstyle, schema_name]
    exact (append_paths_ne_self _).symm

/-- The text for the schema of a struct is written, and can be read. -/
theorem exists_rustText (options : Options) (location : Span) (hstyle : style.suffix = "Paths") :
    ∃ text, TypeSchema.rustText style [item.schema options location] = .ok text ∧
      Definition.read? text = some (definitionsOf style (item.schema options location)) := by
  obtain ⟨bs, hbs⟩ : ∃ bs, blocks style [item.schema options location] = .ok bs := by
    apply exists_blocks
    intro type htype
    obtain rfl := List.mem_singleton.mp htype
    exact h.isIdentifier_of_mem_checkedNames hstyle
  have htext : TypeSchema.rustText style [item.schema options location]
      = .ok ("\n\n".intercalate (bs.map (·.text style))) := by
    rw [TypeSchema.rustText, hbs]
    rfl
  refine ⟨_, htext, ?_⟩
  rw [read?_rustText (h.isDistinct hstyle).made htext, List.any_cons, List.any_nil, Bool.or_false,
    h.hasKeywordCompanion_eq hstyle, if_neg Bool.false_ne_true, List.flatMap_singleton]

end IsPlain

end StructItem

/-! ## Agreement -/

/-- Two definitions are the same to whoever uses them: a struct or a constant is, and a function
returns the same for every path. -/
inductive SameDefinition (defs defs' : List Definition) : Definition → Definition → Prop
  | struct (name : String) : SameDefinition defs defs' (.struct name) (.struct name)
  | constant (owner name value : String) :
    SameDefinition defs defs' (.constant owner name value) (.constant owner name value)
  | function (owner : String) {fn fn' : Fn} (hname : fn.name = fn'.name)
    (hcall : ∀ subpath, ∃ path, fn.call? defs subpath = some path ∧
      fn'.call? defs' subpath = some path) :
    SameDefinition defs defs' (.function owner fn) (.function owner fn')

theorem call?_expandedFn (defs : List Definition) (builder : PathBuilder) (subpath : String) :
    (expandedFn builder).call? defs subpath = some (builder.lead ++ subpath) := by
  simp [Fn.call?, expandedFn, Operand.value?]

/-- Only the functions can be different. -/
theorem sameDefinitions_definitionsWith {defs defs' : List Definition} {fn fn' : PathBuilder → Fn}
    (owner companion : String) {descriptors : List Descriptor}
    (h : ∀ builder ∈ buildersOf descriptors, (fn builder).name = (fn' builder).name ∧
      ∀ subpath, ∃ path, (fn builder).call? defs subpath = some path ∧
        (fn' builder).call? defs' subpath = some path) :
    List.Forall₂ (SameDefinition defs defs') (definitionsWith fn owner companion descriptors)
      (definitionsWith fn' owner companion descriptors) := by
  rw [definitionsWith, definitionsWith]
  refine List.rel_append (List.forall₂_same.mpr ?_) ?_
  · intro d hd
    obtain ⟨constant, -, rfl⟩ := List.mem_map.mp hd
    exact .constant _ _ _
  · split
    · exact .nil
    · refine .cons (.struct _) ?_
      rw [List.forall₂_map_left_iff, List.forall₂_map_right_iff, List.forall₂_same]
      intro builder hbuilder
      obtain ⟨hname, hcall⟩ := h builder hbuilder
      exact .function _ hname hcall

namespace StructItem.IsPlain

variable {item : StructItem} (h : item.IsPlain) {options : Options} {location : Span}
  {style : Style}

include h

theorem definitionsOf_schema (hstyle : style.suffix = "Paths") :
    definitionsOf style (item.schema options location)
      = definitionsWith (builderFn (unraw item.name)) (unraw item.name) (unraw item.name ++ "Paths")
          (item.synthesis options).descriptors := by
  have hbuilders : (item.schema options location).builders
      = buildersOf (item.synthesis options).descriptors := rfl
  rw [definitionsOf, companionDefinitions, companion?, h.companionName_schema hstyle, hbuilders,
    schema_name, definitionsWith]
  cases (buildersOf (item.synthesis options).descriptors).isEmpty <;> rfl

/-- What an expansion defines is what the text for the same schema defines. -/
theorem sameDefinitions (hstyle : style.suffix = "Paths") (defs : List Definition) :
    List.Forall₂ (SameDefinition defs (definitionsOf style (item.schema options location)))
      (definitionsWith expandedFn (unraw item.name) (unraw item.name ++ "Paths")
        (item.synthesis options).descriptors)
      (definitionsOf style (item.schema options location)) := by
  have hdistinct : IsDistinct ⟨options.leaves⟩ style [item.schema options location] :=
    h.isDistinct hstyle
  have hsame : List.Forall₂
      (SameDefinition defs (definitionsOf style (item.schema options location)))
      (definitionsWith expandedFn (unraw item.name) (unraw item.name ++ "Paths")
        (item.synthesis options).descriptors)
      (definitionsWith (builderFn (unraw item.name)) (unraw item.name) (unraw item.name ++ "Paths")
        (item.synthesis options).descriptors) := by
    apply sameDefinitions_definitionsWith
    intro builder hbuilder
    have hjoins := hdistinct.joins List.mem_cons_self hbuilder
    rw [List.flatMap_singleton, schema_name] at hjoins
    obtain ⟨value, -, hvalue⟩ := hjoins.value
    refine ⟨rfl, fun subpath ↦ ⟨builder.lead ++ subpath, call?_expandedFn _ _ _, ?_⟩⟩
    obtain ⟨hcall, hlead, -⟩ := hvalue subpath
    exact hcall.trans (congrArg some hlead)
  rwa [← h.definitionsOf_schema hstyle] at hsame

end StructItem.IsPlain

/-- An interface is refused, because descriptors were asked for. -/
theorem Expansion.refusal?_of_interface {decl : Declaration Unit} (h : decl.kind = .interface)
    (leaves : LeafTable) :
    Expansion.refusal? (decl.synthesis leaves) = some (.refused [.invalidTarget decl.name]) := by
  rw [Declaration.synthesis, h]
  rfl

/-- A struct whose fields have no names is refused like a type that is no struct. -/
theorem StructItem.expansion_of_tuple {item : StructItem} {content : List Tree}
    (h : item.fields = .tuple content) (options : Options) :
    item.expansion options = .error (.refused [.invalidTarget (unraw item.name)]) := by
  have hdecl : item.declaration = interfaceLike item.name := by rw [declaration, h]
  rw [expansion, synthesis, hdecl, Expansion.refusal?_of_interface rfl]
  rfl

theorem Item.expansion_otherType (options : Options) (name : String) :
    (Item.otherType name).expansion options
      = .error (.refused [.invalidTarget (unraw name)]) := by
  rw [expansion, Expansion.refusal, Expansion.refusal?_of_interface rfl]
  rfl

/-- **An expansion and generated text agree.** A struct with named fields or without fields, whose
names are identifiers and those of its fields different ones, is expanded under options that do not
name the companion. The trees behind it define the same, one by one and in the same order, as the
text that is written for its schema where companions end in `Paths`: the constants with their
values, the companion if there is one, and functions that return the same for every path. A struct
whose fields have no names and a type that is no struct are refused with one error. -/
theorem expand_agrees (attr trees : List Tree) :
    (∀ options item, Options.ofTrees attr = .ok options → options.companion = none →
      Item.ofTrees trees = .ok (.struct item) → item.IsPlain →
      ∃ generated defs, expand attr trees = .ok (item.withoutTransient.tokens ++ generated) ∧
        item.definitions? generated = some defs ∧
        ∀ (style : Style) (location : Span), style.suffix = "Paths" →
          ∃ text defs', TypeSchema.rustText style [item.schema options location] = .ok text ∧
            Definition.read? text = some defs' ∧
            List.Forall₂ (SameDefinition defs defs') defs defs') ∧
    ∀ name, (Item.ofTrees trees = .ok (.otherType name) ∨
        ∃ item content, Item.ofTrees trees = .ok (.struct item) ∧ item.fields = .tuple content ∧
          item.name = name) →
      expand attr trees = .error (match Options.ofTrees attr with
        | .ok _ => .refused [.invalidTarget (unraw name)]
        | .error cause => .fault cause) := by
  constructor
  · intro options item hattr hoptions hitem hplain
    have hdefs := definitions?_expand hattr hitem hplain.kind_eq
    rw [hplain.unraw_companionName hoptions] at hdefs
    refine ⟨_, _, expand_of_cls hattr hitem hplain.kind_eq, hdefs, ?_⟩
    intro style location hstyle
    obtain ⟨text, htext, hread⟩ := hplain.exists_rustText options location hstyle
    exact ⟨text, _, htext, hread, hplain.sameDefinitions hstyle _⟩
  · intro name hrefused
    obtain ⟨item, hitem, hexpansion⟩ : ∃ item, Item.ofTrees trees = .ok item ∧
        ∀ options, item.expansion options = .error (.refused [.invalidTarget (unraw name)]) := by
      rcases hrefused with hitem | ⟨item, content, hitem, hfields, rfl⟩
      · exact ⟨_, hitem, (Item.expansion_otherType · name)⟩
      · exact ⟨_, hitem, StructItem.expansion_of_tuple hfields⟩
    rw [expand, hitem]
    cases Options.ofTrees attr with
    | error cause => rfl
    | ok options => exact hexpansion options

/-- A struct that has its mark and parameters, with a visibility and a type in invisible groups, a
type that only the attribute makes a leaf and a field that is kept out; a struct whose fields have no
names; and an enumeration. -/
theorem expand_agrees_type :
    (let attr : List Tree := [.ident "leaf", .punct '=' false, .ident "Id"]
      let fields : List Tree := (Tree.read? "r#fn: T, #[transient] user: User, id: &").getD [] ++
        [.group .invisible [.ident "Id"]]
      let trees := [.group .invisible [.ident "pub"]] ++
        (Tree.read? "struct r#type<T> where T: Copy").getD [] ++ [.braces fields]
      ∃ item generated defs text defs', Options.ofTrees attr = .ok ⟨none, ["Id"]⟩ ∧
        Item.ofTrees trees = .ok (.struct item) ∧ item.IsPlain ∧
        expand attr trees = .ok (item.withoutTransient.tokens ++ generated) ∧
        item.definitions? generated = some defs ∧
        TypeSchema.rustText {} [item.schema ⟨none, ["Id"]⟩ ⟨0, 0, 0⟩] = .ok text ∧
        Definition.read? text = some defs' ∧ List.Forall₂ (SameDefinition defs defs') defs defs') ∧
    expand [] ((Tree.read? "struct Pair(A, B);").getD [])
      = .error (.refused [.invalidTarget "Pair"]) ∧
    expand [] ((Tree.read? "pub enum r#Kind \x7b Open, Closed \x7d").getD [])
      = .error (.refused [.invalidTarget "Kind"]) := by
  refine ⟨?_, ?_, ?_⟩
  · intro attr fields trees
    have hattr : Options.ofTrees attr = .ok ⟨none, ["Id"]⟩ := rfl
    have hstruct : ((Item.ofTrees trees).toOption.bind Item.struct?).any
        (fun item ↦ decide item.IsPlain) = true := by decide +kernel
    obtain ⟨item, hitem, hplain⟩ := Item.exists_struct_of_any hstruct
    rw [decide_eq_true_iff] at hplain
    obtain ⟨generated, defs, hexpand, hdefs, hagree⟩ :=
      (expand_agrees attr trees).1 _ item hattr rfl hitem hplain
    obtain ⟨text, defs', htext, hdefs', hsame⟩ := hagree {} ⟨0, 0, 0⟩ rfl
    exact ⟨item, generated, defs, text, defs', hattr, hitem, hplain, hexpand, hdefs, htext, hdefs',
      hsame⟩
  · have hpair : ((Item.ofTrees ((Tree.read? "struct Pair(A, B);").getD [])).toOption.bind
        Item.struct?).any (fun item ↦ !item.fields.isNamed && item.name == "Pair") = true := by
      decide +kernel
    obtain ⟨item, hitem, hfields⟩ := Item.exists_struct_of_any hpair
    rw [Bool.and_eq_true, Bool.not_eq_true', beq_iff_eq] at hfields
    obtain ⟨hfields, hname⟩ := hfields
    have hsome : ¬ ∀ content, item.fields ≠ .tuple content := by
      rw [← Fields.isNamed_iff, hfields]
      exact Bool.false_ne_true
    obtain ⟨content, hcontent⟩ := not_forall_not.mp hsome
    exact (expand_agrees [] _).2 "Pair" (.inr ⟨item, content, hitem, hcontent, hname⟩)
  · have hkind : (Item.ofTrees ((Tree.read? "pub enum r#Kind \x7b Open, Closed \x7d").getD
        [])).toOption.any (fun | .otherType name => name == "r#Kind" | _ => false) = true := by
      decide +kernel
    obtain ⟨item, hitem, hname⟩ := exists_ok_of_any hkind
    cases item with
    | otherType name =>
      obtain rfl := beq_iff_eq.mp hname
      exact (expand_agrees [] _).2 "r#Kind" (.inl hitem)
    | struct item => cases hname
    | other => cases hname

end Rust

end FieldPaths
