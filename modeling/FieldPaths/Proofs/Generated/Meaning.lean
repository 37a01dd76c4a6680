import FieldPaths.Proofs.Generated.Document
import FieldPaths.Proofs.Generated.Reading
import FieldPaths.Proofs.Names
import Mathlib.Data.List.Forall2
import Mathlib.Data.List.Nodup

/-!
# Generated Rust and generated data agree

The same members are generated twice, as Rust items and as data, and a builder makes its paths a
third time. Here the Rust text is taken for what it defines, the document for what it lists, and the
two are compared type by type, with what the functions return for every path.

A function does not have the name of its field. It refers to a constant, and that it refers to the
right one is a matter of names: the constants of a type have different names because its fields
have, types have different names in any valid compilation, and no companion has the name of a type,
whose constants its functions could be taken for.
-/

namespace FieldPaths

namespace Generated

open Rust

/-! ## Definitions of one type among those of others -/

/-- Of elements with different keys, one alone has something. -/
theorem flatMap_of_nodup {α β : Type} {l : List α} {a : α} (ha : a ∈ l) {key : α → String}
    (hkeys : (l.map key).Nodup) {f : α → List β} (hothers : ∀ b ∈ l, key b ≠ key a → f b = []) :
    l.flatMap f = f a := by
  induction l with
  | nil => cases ha
  | cons first more ih =>
    rw [List.map_cons, List.nodup_cons] at hkeys
    rw [List.forall_mem_cons] at hothers
    rw [List.flatMap_cons]
    rcases List.mem_cons.mp ha with rfl | hmore
    · have hrest : more.flatMap f = [] := by
        rw [List.flatMap_eq_nil_iff]
        intro b hb
        exact hothers.2 b hb fun hkey ↦ hkeys.1 (List.mem_map.mpr ⟨b, hb, hkey⟩)
      rw [hrest, List.append_nil]
    · have hfirst : key first ≠ key a := fun hkey ↦
        hkeys.1 (List.mem_map.mpr ⟨a, hmore, hkey.symm⟩)
      rw [hothers.1 hfirst, List.nil_append]
      exact ih hmore hkeys.2 hothers.2

/-- One element alone has its key. -/
theorem filter_of_nodup {α : Type} {l : List α} {a : α} (ha : a ∈ l) {key : α → String}
    (hkeys : (l.map key).Nodup) : l.filter (fun b ↦ key b == key a) = [a] := by
  rw [← List.flatMap_singleton' l, List.filter_flatMap, flatMap_of_nodup ha hkeys]
  · simp
  · intro b _ hb
    simp [hb]

variable {style : Style} {type : TypeSchema} {owner : String}

theorem structsOf_definitionsOf :
    structsOf (definitionsOf style type) = (companion? style type).toList := by
  have hconstants : structsOf (type.constants.map fun constant ↦
      .constant type.name constant.name constant.value) = [] := by
    simp [structsOf]
  rw [structsOf, definitionsOf, List.filterMap_append, ← structsOf, ← structsOf, hconstants,
    List.nil_append, companionDefinitions]
  cases companion? style type with
  | none => rfl
  | some name => simp [structsOf]

theorem constantsOn_definitionsOf : constantsOn (definitionsOf style type) owner =
    if type.name = owner then type.constants.map fun constant ↦ (constant.name, constant.value)
    else [] := by
  have hcompanion : constantsOn (companionDefinitions style type) owner = [] := by
    rw [companionDefinitions]
    split <;> simp [constantsOn]
  rw [constantsOn, definitionsOf, List.filterMap_append, ← constantsOn, ← constantsOn, hcompanion,
    List.append_nil, constantsOn, List.filterMap_map]
  split
  · rename_i h
    simp [h]
  · rename_i h
    simp [h]

theorem functionsOn_definitionsOf : functionsOn (definitionsOf style type) owner =
    if companion? style type = some owner then type.builders.map (builderFn type.name) else [] := by
  have hconstants : functionsOn (type.constants.map fun constant ↦
      .constant type.name constant.name constant.value) owner = [] := by
    simp [functionsOn]
  rw [functionsOn, definitionsOf, List.filterMap_append, ← functionsOn, ← functionsOn, hconstants,
    List.nil_append, companionDefinitions]
  cases companion? style type with
  | none => rfl
  | some name =>
    rw [functionsOn, List.filterMap_cons, List.filterMap_map]
    by_cases h : name = owner
    · simp [h]
    · simp [h]

/-- A type that is not the companion refers to constants only. -/
theorem filter_isNamed_definitionsOf {name : String} (h : companion? style type ≠ some owner) :
    (definitionsOf style type).filter (·.isNamed owner name) =
      if type.name = owner then (type.constants.filter (·.name == name)).map fun constant ↦
        .constant owner constant.name constant.value
      else [] := by
  have hcompanion : (companionDefinitions style type).filter (·.isNamed owner name) = [] := by
    rw [companionDefinitions]
    split
    · rfl
    · rename_i companion hcompanion
      have hne : companion ≠ owner := fun heq ↦ h (heq ▸ hcompanion)
      simp [Definition.isNamed, hne]
  rw [definitionsOf, List.filter_append, hcompanion, List.append_nil, List.filter_map]
  split
  · rename_i h
    simp [Function.comp_def, Definition.isNamed, h]
  · rename_i h
    simp [Function.comp_def, Definition.isNamed, h]

/-! ## Agreement -/

/-- A function refers to one constant, the only definition with its owner and name, and returns for
every path what the builder makes of it and what is listed. -/
structure Joins (defs : List Definition) (owner : String) (fn : Fn) (builder : PathBuilder)
    (listed : ListedFunction) : Prop where
  name : fn.name = listed.name
  references : fn.references = [(owner, fn.name)]
  value : ∃ value, defs.filter (·.isNamed owner fn.name) = [.constant owner fn.name value] ∧
    ∀ subpath, fn.call? defs subpath = some (value ++ "." ++ subpath) ∧
      value ++ "." ++ subpath = listed.lead ++ subpath ∧
      value ++ "." ++ subpath = builder.apply subpath

/-- The definition is for a type: one of its constants, its companion or a function of that. -/
def IsFor (style : Style) (type : TypeSchema) : Definition → Prop
  | .struct name => name = companionName type.name style.suffix
  | .constant owner _ _ => owner = type.name
  | .function owner _ => owner = companionName type.name style.suffix

/-- What is defined for a type is what is listed of it, and nothing if that is nothing. -/
structure Agrees (style : Style) (defs : List Definition) (type : TypeSchema)
    (listed : ListedType) : Prop where
  name : listed.name = type.name
  constants : constantsOn defs type.name = listed.constants
  functions : (functionsOn defs (companionName type.name style.suffix)).map (·.name)
    = listed.functions.map (·.name)
  joins : List.Forall₂ (fun fn p ↦ Joins defs type.name fn p.1 p.2)
    (functionsOn defs (companionName type.name style.suffix))
    (type.builders.zip listed.functions)
  nothing : listed.constants = [] → ∀ d ∈ defs, ¬ IsFor style type d

/-- Types whose names do not get into each other's way. -/
structure IsDistinct (leaves : LeafTable) (style : Style) (types : List TypeSchema) : Prop where
  made : ∀ type ∈ types, ∀ descriptor ∈ type.descriptors,
    ∃ field : Field Span, descriptor = field.descriptor leaves
  plain : ∀ type ∈ types, unraw type.name = type.name
  names : (types.map (·.name)).Nodup
  constants : ∀ type ∈ types, (type.constants.map (·.name)).Nodup
  companions : ∀ type ∈ types, ∀ name ∈ companion? style type, ∀ other ∈ types, other.name ≠ name

theorem companion?_eq {name : String} (h : companion? style type = some name) :
    name = companionName type.name style.suffix := by
  rw [companion?] at h
  split at h
  · cases h
  · exact (Option.some.inj h).symm

/-- Everything that is defined for a type is for that type. -/
theorem isFor_of_mem_definitionsOf : ∀ d ∈ definitionsOf style type, IsFor style type d := by
  intro d hd
  rcases List.mem_append.mp hd with hd | hd
  · obtain ⟨constant, -, rfl⟩ := List.mem_map.mp hd
    rfl
  · rw [companionDefinitions] at hd
    split at hd
    · cases hd
    · rename_i name hname
      rcases List.mem_cons.mp hd with rfl | hd
      · exact companion?_eq hname
      · obtain ⟨builder, -, rfl⟩ := List.mem_map.mp hd
        exact companion?_eq hname

namespace IsDistinct

variable {leaves : LeafTable} {types : List TypeSchema} (h : IsDistinct leaves style types)

include h

theorem eq_of_name_eq {other : TypeSchema} (htype : type ∈ types) (hother : other ∈ types)
    (hname : other.name = type.name) : other = type :=
  List.inj_on_of_nodup_map h.names hother htype hname

/-- Companions have different names because types have. -/
theorem name_eq_of_companionName_eq {other : TypeSchema} (htype : type ∈ types)
    (hother : other ∈ types)
    (hname : companionName other.name style.suffix = companionName type.name style.suffix) :
    other.name = type.name := by
  rw [companionName, companionName, h.plain type htype, h.plain other hother,
    ← String.toList_inj, String.toList_append, String.toList_append,
    List.append_cancel_right_eq, String.toList_inj] at hname
  exact hname

/-- No definition is for two types. -/
theorem eq_of_isFor {other : TypeSchema} {d : Definition} (htype : type ∈ types)
    (hother : other ∈ types) (hd : IsFor style type d) (hd' : IsFor style other d) :
    other = type := by
  refine h.eq_of_name_eq htype hother ?_
  cases d with
  | struct name => exact h.name_eq_of_companionName_eq htype hother (hd'.symm.trans hd)
  | constant owner name value => exact hd'.symm.trans hd
  | function owner fn => exact h.name_eq_of_companionName_eq htype hother (hd'.symm.trans hd)

theorem constantsOn_eq (htype : type ∈ types) :
    constantsOn (types.flatMap (definitionsOf style)) type.name
      = type.constants.map fun constant ↦ (constant.name, constant.value) := by
  rw [constantsOn, List.filterMap_flatMap]
  change types.flatMap (fun other ↦ constantsOn (definitionsOf style other) type.name) = _
  rw [flatMap_of_nodup htype h.names, constantsOn_definitionsOf, if_pos rfl]
  intro other _ hname
  rw [constantsOn_definitionsOf, if_neg hname]

theorem functionsOn_eq (htype : type ∈ types) :
    functionsOn (types.flatMap (definitionsOf style)) (companionName type.name style.suffix)
      = type.builders.map (builderFn type.name) := by
  rw [functionsOn, List.filterMap_flatMap]
  change types.flatMap (fun other ↦
    functionsOn (definitionsOf style other) (companionName type.name style.suffix)) = _
  rw [flatMap_of_nodup htype h.names, functionsOn_definitionsOf, companion?]
  · cases hbuilders : type.builders with
    | nil => rfl
    | cons builder more => exact if_pos rfl
  · intro other hother hname
    rw [functionsOn_definitionsOf, if_neg]
    exact fun hcompanion ↦ hname
      (h.name_eq_of_companionName_eq htype hother (companion?_eq hcompanion).symm)

/-- A constant is the only definition with its owner and name. -/
theorem filter_isNamed_eq (htype : type ∈ types) {constant : FieldConstant}
    (hconstant : constant ∈ type.constants) :
    (types.flatMap (definitionsOf style)).filter (·.isNamed type.name constant.name)
      = [.constant type.name constant.name constant.value] := by
  have hcompanion : ∀ other ∈ types, companion? style other ≠ some type.name :=
    fun other hother heq ↦ h.companions other hother _ heq type htype rfl
  rw [List.filter_flatMap, flatMap_of_nodup htype h.names,
    filter_isNamed_definitionsOf (hcompanion type htype), if_pos rfl,
    filter_of_nodup hconstant (h.constants type htype), List.map_singleton]
  intro other hother hname
  rw [filter_isNamed_definitionsOf (hcompanion other hother), if_neg hname]

theorem joins (htype : type ∈ types) {builder : PathBuilder} (hbuilder : builder ∈ type.builders) :
    Joins (types.flatMap (definitionsOf style)) type.name (builderFn type.name builder) builder
      ⟨builder.name, builder.param, builder.lead⟩ := by
  obtain ⟨field, hdescriptor, rfl⟩ := exists_field_of_mem_builders (h.made type htype) hbuilder
  have hconstant : (field.descriptor leaves).constant ∈ type.constants :=
    List.mem_map_of_mem hdescriptor
  have hfilter := h.filter_isNamed_eq htype hconstant
  refine ⟨rfl, rfl, field.name, hfilter, fun subpath ↦ ⟨?_, rfl, rfl⟩⟩
  have hvalue : Rust.constant? (types.flatMap (definitionsOf style)) type.name
      (descriptorName field.name) = some field.name := constant?_of_filter hfilter
  simp [Fn.call?, builderFn, Operand.value?, hvalue, pathSeparator, String.append_assoc]

theorem agrees (htype : type ∈ types) :
    Agrees style (types.flatMap (definitionsOf style)) type (ListedType.ofType type) where
  name := rfl
  constants := h.constantsOn_eq htype
  functions := by
    rw [h.functionsOn_eq htype, ListedType.ofType, List.map_map, List.map_map]
    rfl
  joins := by
    rw [h.functionsOn_eq htype, ListedType.ofType, ← List.map_prod_left_eq_zip,
      List.forall₂_map_left_iff, List.forall₂_map_right_iff, List.forall₂_same]
    exact fun builder hbuilder ↦ h.joins htype hbuilder
  nothing := by
    intro hnone d hd hfor
    obtain ⟨other, hother, hd⟩ := List.mem_flatMap.mp hd
    obtain rfl := h.eq_of_isFor htype hother hfor (isFor_of_mem_definitionsOf d hd)
    have hdescriptors : other.descriptors = [] := by
      rw [ListedType.ofType, List.map_eq_nil_iff, TypeSchema.constants, constantsOf,
        List.map_eq_nil_iff] at hnone
      exact hnone
    rw [(definitionsOf_of_descriptors_eq_nil hdescriptors).1] at hd
    cases hd

end IsDistinct

/-! ## Compilations -/

section

variable {sources : List Source} {leaves : LeafTable} {selection : Selection}

theorem unraw_of_isName {name : String} (h : Token.IsName name.toList) : unraw name = name := by
  obtain ⟨c, more, hname, -, hmore⟩ := h
  rw [unraw]
  split
  · rename_i rest heq
    rw [hname, List.cons_eq_cons] at heq
    have hmark := hmore '#' (heq.2 ▸ List.mem_cons_self)
    exact absurd hmark (by decide)
  · rfl

theorem descriptorName_injective : Function.Injective descriptorName := by
  intro name other h
  rw [descriptorName, descriptorName, ← String.toList_inj, String.toList_append,
    String.toList_append, List.append_cancel_left_eq, String.toList_inj] at h
  exact h

/-- Constants have different names because fields have. -/
theorem nodup_constants_schema {decl : Declaration Span}
    (h : decl.kind = .cls → (decl.eligibleFields.map (·.name)).Nodup) :
    ((decl.schema leaves).constants.map (·.name)).Nodup := by
  rw [Declaration.schema, TypeSchema.constants, Declaration.synthesis]
  cases hkind : decl.kind with
  | interface => exact List.nodup_nil
  | cls =>
    have hnames : (constantsOf (decl.eligibleFields.map (·.descriptor leaves))).map (·.name)
        = (decl.eligibleFields.map (·.name)).map descriptorName := by
      rw [constantsOf, List.map_map, List.map_map, List.map_map]
      rfl
    rw [hnames]
    exact (h hkind).map descriptorName_injective

/-- What is selected in a compilation, by names that are all different and as plain as they were
declared. -/
theorem compile_types_names (sources : List Source) (leaves : LeafTable) (selection : Selection) :
    ((compile sources leaves selection).types.map (·.name)).Nodup ∧
      ∀ type ∈ (compile sources leaves selection).types, unraw type.name = type.name := by
  have hdeclared : (compile sources leaves selection).types.map (·.name)
      = ((compile sources leaves selection).declarations.filter selection.selects).map
          Declaration.name := List.map_map
  refine ⟨?_, fun type htype ↦ ?_⟩
  · rw [hdeclared]
    exact (compile_declarations_nodup sources leaves selection).sublist
      (List.filter_sublist.map _)
  · obtain ⟨decl, hdecl, rfl⟩ := List.mem_map.mp htype
    exact unraw_of_isName (isName_of_mem_declarations leaves selection (List.mem_filter.mp hdecl).1)

/-- The names in the way are those of fields of one type and those of companions. -/
theorem isDistinct_compile
    (hfields : ∀ decl ∈ (compile sources leaves selection).declarations,
      selection.selects decl = true → decl.kind = .cls →
        (decl.eligibleFields.map (·.name)).Nodup)
    (hcompanions : ∀ type ∈ (compile sources leaves selection).types,
      ∀ name ∈ companion? style type,
        ∀ decl ∈ (compile sources leaves selection).declarations, decl.name ≠ name) :
    IsDistinct leaves style (compile sources leaves selection).types := by
  obtain ⟨hnodup, hplain⟩ := compile_types_names sources leaves selection
  have htypes {type : TypeSchema} (htype : type ∈ (compile sources leaves selection).types) :
      ∃ decl ∈ (compile sources leaves selection).declarations,
        selection.selects decl = true ∧ decl.schema leaves = type := by
    obtain ⟨decl, hdecl, rfl⟩ := List.mem_map.mp htype
    obtain ⟨hdecl, hselects⟩ := List.mem_filter.mp hdecl
    exact ⟨decl, hdecl, hselects, rfl⟩
  refine ⟨fun type htype descriptor ↦ exists_field_of_mem_descriptors htype, hplain, hnodup, ?_, ?_⟩
  · intro type htype
    obtain ⟨decl, hdecl, hselects, rfl⟩ := htypes htype
    exact nodup_constants_schema (hfields decl hdecl hselects)
  · intro type htype name hcompanion other hother
    obtain ⟨decl, hdecl, -, rfl⟩ := htypes hother
    exact hcompanions type htype name hcompanion decl hdecl

/-- **Generated Rust and generated data agree.** Where the fields of every selected class have
different names and no companion has the name of a declaration, the text that is written for a
compilation defines for every type the constants and functions that the document lists for it, in
their order; every function refers to a constant of its type that is defined once, and returns for
every path what the listed prefix and the builder make of it; and for a type without listed
constants nothing is defined. The text can be read like this exactly if no companion has the name of
a keyword. -/
theorem rustText_agrees (sources : List Source) (leaves : LeafTable) (selection : Selection)
    (style : Style) (text : String) (indented : Bool)
    (htext : (compile sources leaves selection).rustText style = .ok text)
    (hfields : ∀ decl ∈ (compile sources leaves selection).declarations,
      selection.selects decl = true → decl.kind = .cls →
        (decl.eligibleFields.map (·.name)).Nodup)
    (hcompanions : ∀ type ∈ (compile sources leaves selection).types,
      ∀ name ∈ companion? style type,
        ∀ decl ∈ (compile sources leaves selection).declarations, decl.name ≠ name) :
    let types := (compile sources leaves selection).types
    (compile sources leaves selection).jsonText indented
        = .ok ((TypeSchema.document types).write (if indented then .indented else .compact) 0) ∧
      ((Definition.read? text).isSome = true ↔
        ∀ type ∈ types, ∀ name ∈ companion? style type, name ∉ Rust.keywords) ∧
      ∀ defs, Definition.read? text = some defs →
        ∃ listed, ListedType.ofDocument? (TypeSchema.document types) = some listed ∧
          List.Forall₂ (Agrees style defs) types listed ∧
          ∀ d ∈ defs, ∃ type ∈ types, IsFor style type d := by
  intro types
  obtain ⟨hvalidTypes, -, hrust⟩ := rustText_of_compilation htext
  have hdistinct : IsDistinct leaves style types := isDistinct_compile hfields hcompanions
  have hread := read?_rustText hdistinct.made hrust
  refine ⟨?_, ?_, fun defs hdefs ↦ ?_⟩
  · rw [Compilation.jsonText, hvalidTypes]
    rfl
  · have hkeyword : types.any (hasKeywordCompanion style) = false ↔
        ∀ type ∈ types, ∀ name ∈ companion? style type, name ∉ Rust.keywords := by
      simp [hasKeywordCompanion, isKeyword, Option.any_eq_false]
    rw [← hkeyword, hread]
    cases types.any (hasKeywordCompanion style) <;> simp
  · rw [hread] at hdefs
    split at hdefs
    · cases hdefs
    · obtain rfl := Option.some.inj hdefs
      refine ⟨types.map ListedType.ofType, ListedType.ofDocument?_document types, ?_, ?_⟩
      · rw [List.forall₂_map_right_iff, List.forall₂_same]
        exact fun type htype ↦ hdistinct.agrees htype
      · intro d hd
        obtain ⟨type, htype, hd⟩ := List.mem_flatMap.mp hd
        exact ⟨type, htype, isFor_of_mem_definitionsOf d hd⟩

theorem exists_ok_of_isOk {ε α : Type} {x : Except ε α} (h : x.isOk = true) : ∃ a, x = .ok a := by
  cases x with
  | error e => cases h
  | ok a => exact ⟨a, rfl⟩

theorem exists_ok_of_any {ε α : Type} {x : Except ε α} {p : α → Bool}
    (h : x.toOption.any p = true) : ∃ a, x = .ok a ∧ p a = true := by
  cases x with
  | error e => cases h
  | ok a => exact ⟨a, rfl, h⟩

/-- A class with builders and one of which nothing is generated; and a class whose companion would
be `struct`, where there is no reading. -/
theorem rustText_agrees_order :
    (let c := compile [⟨.inline, "@Schema class Order { id: int item: Item type: Item[] }
        @Schema class Fixed { final id: int } class Item {}"⟩] {} .marked
      ∃ text defs listed, c.rustText {} = .ok text ∧ Definition.read? text = some defs ∧
        ListedType.ofDocument? (TypeSchema.document c.types) = some listed ∧
        List.Forall₂ (Agrees {} defs) c.types listed) ∧
    (let c := compile [⟨.inline, "@Schema class s { a: B }"⟩] {} .marked
      ∃ text, c.rustText ⟨"truct", true, true⟩ = .ok text ∧ Definition.read? text = none) := by
  constructor
  · intro c
    have hok : (c.rustText {}).isOk = true := by decide +kernel
    obtain ⟨text, htext⟩ := exists_ok_of_isOk hok
    obtain ⟨-, hreadable, hagrees⟩ := rustText_agrees _ _ _ _ text true htext
      (by decide +kernel) (by decide +kernel)
    obtain ⟨defs, hdefs⟩ := Option.isSome_iff_exists.mp (hreadable.mpr (by decide +kernel))
    obtain ⟨listed, hlisted, hall, -⟩ := hagrees defs hdefs
    exact ⟨text, defs, listed, htext, hdefs, hlisted, hall⟩
  · intro c
    have hok : (c.rustText ⟨"truct", true, true⟩).isOk = true := by decide +kernel
    obtain ⟨text, htext⟩ := exists_ok_of_isOk hok
    obtain ⟨-, hreadable, -⟩ := rustText_agrees _ _ _ _ text true htext
      (by decide +kernel) (by decide +kernel)
    refine ⟨text, htext, Option.not_isSome_iff_eq_none.mp fun hsome ↦ ?_⟩
    exact absurd (hreadable.mp hsome) (by decide +kernel)

end

end Generated

end FieldPaths
