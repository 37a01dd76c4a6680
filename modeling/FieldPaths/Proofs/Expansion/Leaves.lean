import FieldPaths.Proofs.Expansion.Fields
import FieldPaths.Rust.Scan

/-!
# The leaves of an attribute

A name in an attribute is to make every field of a type of that name end its paths. The name and the
type are compared as texts, but a type has lost the marks of raw names by then and a name in an
attribute has not. So a name that is written without the mark is found whether or not the type has
the mark, and a name that has it is found by no type at all.

What a field's type is called goes through references, parentheses and groups, which is the only
part that is a recursion. What is defined for a field is known from the fields that are shown and go
on, so all that is left is to say which fields go on.
-/

namespace FieldPaths.Rust

/-! ## The name of a type -/

/-- The last name of the path that a type is behind references, parentheses and groups, as it is
written. -/
def Ty.pathName? : Ty → Option String
  | .path _ _ last => some last.name
  | .reference _ elem | .paren elem | .group elem => elem.pathName?
  | _ => none

theorem Ty.typeRef_of_pathName? {type : Ty} {name : String} (h : type.pathName? = some name) :
    type.typeRef.name = unraw name ∧ type.typeRef.isArray = false := by
  fun_induction Ty.pathName? type with
  | case1 lead qualifier last =>
    cases h
    exact ⟨rfl, rfl⟩
  | case2 modifiers elem ih => exact ih h
  | case3 elem ih => exact ih h
  | case4 elem ih => exact ih h
  | case5 => cases h

/-- A type that is a path is a leaf by its name without the mark. -/
theorem isLeaf_iff_of_pathName? {type : Ty} {name : String} (h : type.pathName? = some name)
    (leaves : LeafTable) : leaves.isLeaf type.typeRef = true ↔
      (LeafType.ofName? (unraw name)).isSome = true ∨ unraw name ∈ leaves.added := by
  obtain ⟨hname, harray⟩ := Ty.typeRef_of_pathName? h
  rw [LeafTable.isLeaf_iff, hname, and_iff_right harray]

theorem FieldItem.goesOn_eq_false_iff {field : FieldItem} {name : String}
    (h : field.type.pathName? = some name) (leaves : LeafTable) : field.goesOn leaves = false ↔
      (LeafType.ofName? (unraw name)).isSome = true ∨ unraw name ∈ leaves.added := by
  rw [goesOn, Bool.not_eq_false', isLeaf_iff_of_pathName? h]

/-! ## Leaf options -/

/-- **Which leaf options count.** A struct with named fields is expanded whatever the options of the
attribute are. Read as definitions, what is behind it has a constant for every field that carries
nothing but comments, in their order, and a function for those of them that go on. Where the type of
such a field is a path, behind references, parentheses and groups, the field does not go on exactly
if the last name of the path without its mark is that of a leaf of every compilation or is the last
name of a leaf option as it is written. So a leaf option of the same name that does not count is one
that has the mark of the raw form. -/
theorem expand_leaves {attr trees : List Tree} {given : List SchemaOption} {item : StructItem}
    {fields : List FieldItem} {hasTrailingComma : Bool}
    (hattr : SchemaOption.listOf attr = .ok given)
    (hitem : Item.ofTrees trees = .ok (.struct item))
    (hfields : item.fields = .named fields hasTrailingComma) :
    let leaves : LeafTable := ⟨given.filterMap (·.leafName?)⟩
    let shown := fields.filter (·.attrs.all (·.isNamed "doc"))
    (∃ generated defs, expand attr trees = .ok (item.withoutTransient.tokens ++ generated) ∧
      item.definitions? generated = some defs ∧
      constantsIn defs = shown.map (fun field ↦
        (unraw item.name, "_" ++ unraw field.name, unraw field.name)) ∧
      (functionsIn defs).map (fun (owner, fn) ↦ (owner, fn.name)) =
        (shown.filter (·.goesOn leaves)).map fun field ↦
          (unraw (item.companionName (.collected given)), "_" ++ unraw field.name)) ∧
      ∀ field ∈ shown, ∀ name, field.type.pathName? = some name →
        (field.goesOn leaves = false ↔ (LeafType.ofName? (unraw name)).isSome = true ∨
          ∃ option ∈ given, option.leafName? = some (unraw name)) ∧
        ∀ option ∈ given, ∀ leaf, option.leafName? = some leaf → unraw leaf = unraw name →
          field.goesOn leaves = true → leaf = "r#" ++ unraw name := by
  intro leaves shown
  have hkind : item.declaration.kind = .cls := by rw [StructItem.declaration, hfields]
  have hoptions : Options.ofTrees attr = .ok (.collected given) := by
    rw [Options.ofTrees_eq, hattr]
    rfl
  have hlist : item.fields.list = fields := by rw [hfields, Fields.list]
  constructor
  · obtain ⟨generated, defs, hexpand, hdefs, hconstants, hfunctions⟩ :=
      exists_definitions_of_cls hoptions hitem hkind
    rw [hlist] at hconstants hfunctions
    exact ⟨generated, defs, hexpand, hdefs, hconstants, hfunctions⟩
  · intro field _ name hname
    have hends : field.goesOn leaves = false ↔ (LeafType.ofName? (unraw name)).isSome = true ∨
        ∃ option ∈ given, option.leafName? = some (unraw name) := by
      rw [FieldItem.goesOn_eq_false_iff hname, List.mem_filterMap]
    refine ⟨hends, fun option hoption leaf hleaf hsame hgoes ↦ ?_⟩
    -- without the mark the option would have been found
    rcases eq_or_eq_raw leaf with hplain | hraw
    · rw [hplain, hsame] at hleaf
      have hstops := hends.mpr (.inr ⟨option, hoption, hleaf⟩)
      exact absurd (hgoes.symm.trans hstops) Bool.noConfusion
    · rw [hraw, hsame]

/-- Fields that can be listed have names. -/
theorem Fields.eq_named_of_mem {fields : Fields} {field : FieldItem} (h : field ∈ fields.list) :
    ∃ hasTrailingComma, fields = .named fields.list hasTrailingComma := by
  cases fields with
  | named fields hasTrailingComma => exact ⟨hasTrailingComma, rfl⟩
  | tuple tokens => cases h
  | unit => cases h

/-- Two fields of types that the attribute names: one is not found because both have the mark, and
one is found behind a reference, parentheses and an invisible group. -/
theorem expand_leaves_type :
    let attr := (Tree.read? "leaf = r#type, leaf = store::Id").getD []
    let trees := [.ident "struct", .ident "Order", .braces (
      (Tree.read? "kind: r#type, #[transient] user: User, #[doc = \"unique\"] id: &").getD [] ++
        [.parens [.group .invisible [.ident "Id"]]])]
    ∃ item kind user id generated defs, Item.ofTrees trees = .ok (.struct item) ∧
      item.fields.list = [kind, user, id] ∧
      kind.type.pathName? = some "r#type" ∧ id.type.pathName? = some "Id" ∧
      expand attr trees = .ok (item.withoutTransient.tokens ++ generated) ∧
      item.definitions? generated = some defs ∧
      constantsIn defs = [("Order", "_kind", "kind"), ("Order", "_id", "id")] ∧
      (functionsIn defs).map (fun (owner, fn) ↦ (owner, fn.name)) = [("OrderPaths", "_kind")] := by
  intro attr trees
  have hoptions : (SchemaOption.listOf attr).toOption.any (fun given ↦
      decide (given.map (·.leafName?) = [some "r#type", some "Id"] ∧
        given.map (·.companion?) = [none, none])) = true := by decide +kernel
  have hstruct : ((Item.ofTrees trees).toOption.bind Item.struct?).any (fun item ↦
      decide (item.name = "Order" ∧ item.fields.list.map (fun field ↦
          (field.name, field.attrs.all (·.isNamed "doc"), field.type.pathName?))
        = [("kind", true, some "r#type"), ("user", false, some "User"), ("id", true, some "Id")]))
      = true := by decide +kernel
  obtain ⟨given, hattr, hgiven⟩ := Generated.exists_ok_of_any hoptions
  obtain ⟨item, hitem, hfacts⟩ := Item.exists_struct_of_any hstruct
  obtain ⟨hleaves, hcompanions⟩ := of_decide_eq_true hgiven
  obtain ⟨hname, hfields⟩ := of_decide_eq_true hfacts
  simp only [List.map_eq_cons_iff, List.map_eq_nil_iff, Prod.mk.injEq] at hfields
  obtain ⟨kind, _, hlist, ⟨hkindName, hkindDoc, hkind⟩, user, _, rfl, ⟨-, huserDoc, -⟩,
    id, _, rfl, ⟨hidName, hidDoc, hid⟩, rfl⟩ := hfields
  obtain ⟨hasTrailingComma, hnamed⟩ := Fields.eq_named_of_mem (hlist ▸ List.mem_cons_self)
  rw [hlist] at hnamed
  obtain ⟨⟨generated, defs, hexpand, hdefs, hconstants, hfunctions⟩, hends⟩ :=
    expand_leaves hattr hitem hnamed
  have hshown : [kind, user, id].filter (·.attrs.all (·.isNamed "doc")) = [kind, id] := by
    simp [hkindDoc, huserDoc, hidDoc]
  rw [hshown] at hconstants hfunctions hends
  have hnames (name : String) : (∃ option ∈ given, option.leafName? = some name) ↔
      name = "r#type" ∨ name = "Id" := by
    rw [← List.mem_map, hleaves]
    simp
  have hkindGoes : kind.goesOn ⟨given.filterMap (·.leafName?)⟩ = true := by
    rw [← Bool.not_eq_false, (hends kind (by simp) _ hkind).1, hnames]
    decide +kernel
  have hidStops : id.goesOn ⟨given.filterMap (·.leafName?)⟩ = false := by
    rw [(hends id (by simp) _ hid).1, hnames]
    decide +kernel
  have hnone : given.filterMap (·.companion?) = [] := by
    rw [List.filterMap_eq_nil_iff, ← List.forall_mem_map (P := (· = none)), hcompanions]
    simp
  have hcompanion : item.companionName (.collected given) = "OrderPaths" := by
    rw [StructItem.companionName, Options.collected, hnone, hname]
    rfl
  refine ⟨item, kind, user, id, generated, defs, hitem, hlist, hkind, hid, hexpand, hdefs, ?_, ?_⟩
  · rw [hconstants, hname, List.map_cons, List.map_singleton, hkindName, hidName]
    rfl
  · rw [hfunctions, hcompanion, List.filter_cons, if_pos hkindGoes, List.filter_singleton, hidStops]
    rw [Bool.cond_false, List.map_singleton, hkindName]
    rfl

end FieldPaths.Rust
