import FieldPaths.Proofs.Expansion.Agreement

/-!
# What an expansion keeps

A struct is written again with nothing changed but the attributes of its named fields, of which
those are left out whose path is the one name `transient`. Whether a field has a constant is decided
before that, and by the last name of each path: so an attribute that is left out still keeps its
field from having one, and so does one that only ends in `transient` or in `doc`.

What is written is compared word by word with what was read, on the assumption that a struct is
written as it was read. All words around the attributes of the fields are the same.
-/

namespace FieldPaths.Rust

/-! ## Words around attributes -/

namespace Tree

theorem wordsOf_append (front back : List Tree) :
    wordsOf (front ++ back) = wordsOf front ++ wordsOf back := by
  induction front with
  | nil => rfl
  | cons t front ih => rw [List.cons_append, wordsOf, wordsOf, ih, List.append_assoc]

theorem wordsOf_flatMap {α : Type} (l : List α) (trees : α → List Tree) :
    wordsOf (l.flatMap trees) = l.flatMap fun a ↦ wordsOf (trees a) := by
  induction l with
  | nil => rfl
  | cons a l ih => rw [List.flatMap_cons, List.flatMap_cons, wordsOf_append, ih]

end Tree

/-- Where none of the items is a lifetime, they stay in their order. -/
theorem separated_map_false {α : Type} (l : List α) (trees : α → List Tree)
    (hasTrailingComma : Bool) :
    separated (l.map fun a ↦ (false, trees a)) hasTrailingComma =
      l.zipIdx.flatMap fun place ↦ trees place.1 ++
        if place.2 + 1 < l.length || hasTrailingComma then Tree.op "," else [] := by
  let marked := l.zipIdx.map fun place ↦
    (false, trees place.1, place.2 + 1 < l.length || hasTrailingComma)
  have hordered : marked.filter (·.1) ++ marked.filter (!·.1) = marked := by
    simp [marked, List.filter_map, Function.comp_def]
  have hindices : marked.zipIdx = l.zipIdx.map fun place ↦
      ((false, trees place.1, decide (place.2 + 1 < l.length) || hasTrailingComma), place.2) :=
    List.ext_getElem (by simp [marked]) (by simp [marked])
  rw [separated, List.zipIdx_map, List.map_map, List.length_map]
  change (marked.filter (·.1) ++ marked.filter (!·.1)).zipIdx.flatMap (fun item ↦
    item.1.2.1 ++ if item.2 + 1 < l.length || item.1.2.2 then Tree.op "," else []) = _
  rw [hordered, hindices, List.flatMap_map]
  refine List.flatMap_congr fun place _ ↦ ?_
  simp

namespace StructItem

/-- The struct with other attributes on its named fields. -/
def withAttrs (item : StructItem) (attrs : List Attr → List Attr) : StructItem :=
  match item.fields with
  | .named fields hasTrailingComma =>
    { item with
      fields := .named (fields.map fun field ↦ { field with attrs := attrs field.attrs })
        hasTrailingComma }
  | _ => item

theorem withAttrs_id (item : StructItem) : item.withAttrs id = item := by
  rw [withAttrs]
  split
  · simp [← ‹item.fields = _›]
  · rfl

theorem withAttrs_filter (item : StructItem) :
    item.withAttrs (·.filter (!·.isNamed Attr.transientName)) = item.withoutTransient := rfl

/-- Whatever the attributes of its named fields are, all other words of a struct are the same. -/
theorem exists_wordsOf_withAttrs (item : StructItem) :
    ∃ (before after : List String) (fields : List (FieldItem × List String)),
      fields.map Prod.fst = item.fields.list ∧ ∀ attrs : List Attr → List Attr,
        Tree.wordsOf (item.withAttrs attrs).tokens = before ++ fields.flatMap (fun (field, rest) ↦
          Tree.wordsOf (Attr.tokensOf (attrs field.attrs)) ++ rest) ++ after := by
  cases hfields : item.fields with
  | named fields hasTrailingComma =>
    let front := Attr.tokensOf item.attrs ++ item.visibility ++
      [.ident "struct", .ident item.name] ++ item.generics.angled Param.tokens ++
        item.generics.whereTokens
    let rest (field : FieldItem) (index : Nat) : List Tree :=
      field.visibility ++ [.ident field.name] ++ Tree.op ":" ++ field.type.tokens ++
        if index + 1 < fields.length || hasTrailingComma then Tree.op "," else []
    refine ⟨Tree.wordsOf front ++ [Delimiter.brace.opening], [Delimiter.brace.closing],
      fields.zipIdx.map fun (field, index) ↦ (field, Tree.wordsOf (rest field index)), ?_,
      fun attrs ↦ ?_⟩
    · rw [List.map_map]
      exact List.zipIdx_map_fst 0 fields
    · have htokens : (item.withAttrs attrs).tokens = front ++ [.braces (fields.zipIdx.flatMap
          fun (field, index) ↦ Attr.tokensOf (attrs field.attrs) ++ rest field index)] := by
        rw [withAttrs, hfields, tokens]
        dsimp only
        rw [separated_map_false, List.zipIdx_map, List.flatMap_map, List.length_map]
        simp only [front, rest, FieldItem.tokens, Prod.map, id, List.append_assoc]
      rw [htokens, Tree.wordsOf_append, List.flatMap_map]
      simp only [Tree.braces, Tree.wordsOf, Tree.words, Tree.wordsOf_flatMap, Tree.wordsOf_append,
        List.append_assoc, List.append_nil, List.cons_append, List.nil_append]
  | tuple content =>
    refine ⟨Tree.wordsOf item.tokens, [], [], rfl, fun attrs ↦ ?_⟩
    rw [withAttrs, hfields]
    simp
  | unit =>
    refine ⟨Tree.wordsOf item.tokens, [], [], rfl, fun attrs ↦ ?_⟩
    rw [withAttrs, hfields]
    simp

end StructItem

/-! ## What is expanded -/

/-- What is expanded is a struct that is a class. -/
theorem exists_of_expand {attr trees out : List Tree} (h : expand attr trees = .ok out) :
    ∃ options item, Options.ofTrees attr = .ok options ∧
      Item.ofTrees trees = .ok (.struct item) ∧ item.declaration.kind = .cls := by
  rw [expand] at h
  cases hattr : Options.ofTrees attr with
  | error cause =>
    rw [hattr] at h
    cases h
  | ok options =>
    cases hitem : Item.ofTrees trees with
    | error cause =>
      rw [hattr, hitem] at h
      cases h
    | ok item =>
      rw [hattr, hitem] at h
      change item.expansion options = .ok out at h
      cases item with
      | otherType name => cases h
      | other => cases h
      | struct item =>
        refine ⟨options, item, rfl, rfl, ?_⟩
        rw [StructItem.declaration]
        cases hfields : item.fields with
        | named fields hasTrailingComma => rfl
        | unit => rfl
        | tuple content =>
          have hrefused := (StructItem.expansion_of_tuple hfields options).symm.trans h
          cases hrefused

/-- **What an expansion keeps.** Suppose that a struct is written as it was read. What is expanded
then starts with the words that were read, except that from the attributes of named fields those are
gone whose path is the one name `transient`, however they go on and however often there is one. Read
as definitions, what is behind that has the constants of the fields that had no attribute but `doc`
before, one for each and in their order, and no others. -/
theorem expand_keeps {attr trees out : List Tree} (hexpand : expand attr trees = .ok out)
    (hprint : ∀ item, Item.ofTrees trees = .ok (.struct item) →
      Tree.wordsOf item.tokens = Tree.wordsOf trees) :
    ∃ (item : StructItem) (before after : List String) (fields : List (FieldItem × List String))
      (generated : List Tree) (defs : List Definition),
      Item.ofTrees trees = .ok (.struct item) ∧ fields.map Prod.fst = item.fields.list ∧
      Tree.wordsOf trees = before ++ fields.flatMap (fun (field, rest) ↦
        Tree.wordsOf (Attr.tokensOf field.attrs) ++ rest) ++ after ∧
      out = item.withoutTransient.tokens ++ generated ∧
      Tree.wordsOf item.withoutTransient.tokens = before ++ fields.flatMap (fun (field, rest) ↦
        Tree.wordsOf (Attr.tokensOf (field.attrs.filter (!·.isNamed "transient"))) ++ rest) ++
          after ∧
      item.definitions? generated = some defs ∧
      constantsIn defs = (item.fields.list.filter (·.attrs.all (·.isNamed "doc"))).map
        fun field ↦ (unraw item.name, "_" ++ unraw field.name, unraw field.name) := by
  obtain ⟨options, item, hoptions, hitem, hkind⟩ := exists_of_expand hexpand
  obtain ⟨before, after, fields, hfields, hwords⟩ := item.exists_wordsOf_withAttrs
  obtain ⟨generated, defs, hout, hdefs, hconstants, -⟩ :=
    exists_definitions_of_cls hoptions hitem hkind
  have hread := hwords id
  rw [item.withAttrs_id, hprint item hitem] at hread
  have hkept := hwords (·.filter (!·.isNamed Attr.transientName))
  rw [item.withAttrs_filter] at hkept
  exact ⟨item, before, after, fields, generated, defs, hitem, hfields, hread,
    Except.ok.inj (hexpand.symm.trans hout), hkept, hdefs, hconstants⟩

/-- A struct with three fields that have these attributes. -/
def session (id cache user : List Tree) : List Tree :=
  [.ident "struct", .ident "Session", .braces (
    id ++ [.ident "id", .punct ':' false, .ident "Key", .punct ',' false] ++
      cache ++ [.ident "cache", .punct ':' false, .ident "Cache", .punct ',' false] ++
        user ++ [.ident "user", .punct ':' false, .ident "User"])]

/-- One field has a comment, one is kept out twice and has an attribute that stays, and one has an
attribute that only ends in the name. The struct is public by way of an invisible group, which is
not written again. -/
theorem expand_keeps_session :
    let doc := Tree.attr [.ident "doc", .punct '=' false, .literal "\"key\""]
    let skip := Tree.attr [.ident "serde", .parens [.ident "skip"]]
    let cached := Tree.attr (.ident "cache" :: Tree.op "::" ++ [.ident "transient"])
    let read := session doc (Tree.attr [.ident "transient"] ++ skip ++
      Tree.attr [.ident "transient", .parens [.ident "now"]]) cached
    ∃ item generated defs, Item.ofTrees (.group .invisible [.ident "pub"] :: read)
        = .ok (.struct item) ∧
      expand [] (.group .invisible [.ident "pub"] :: read)
        = .ok (.ident "pub" :: session doc skip cached ++ generated) ∧
      item.definitions? generated = some defs ∧
      constantsIn defs = [("Session", "_id", "id")] := by
  intro doc skip cached read
  have hstruct : ((Item.ofTrees (.group .invisible [.ident "pub"] :: read)).toOption.bind
      Item.struct?).any (fun item ↦ decide (item.tokens = .ident "pub" :: read ∧
        item.withoutTransient.tokens = .ident "pub" :: session doc skip cached ∧
        (item.fields.list.filter (·.attrs.all (·.isNamed "doc"))).map (fun field ↦
            (unraw item.name, "_" ++ unraw field.name, unraw field.name))
          = [("Session", "_id", "id")])) = true := by decide +kernel
  have hout : (expand [] (.group .invisible [.ident "pub"] :: read)).toOption.any (fun _ ↦ true)
      = true := by decide +kernel
  clear_value read
  obtain ⟨item, hitem, hfacts⟩ := Item.exists_struct_of_any hstruct
  obtain ⟨hprint, hkept, hshown⟩ := of_decide_eq_true hfacts
  obtain ⟨out, hexpand, -⟩ := Generated.exists_ok_of_any hout
  have hsame {item' : StructItem}
      (h : Item.ofTrees (.group .invisible [.ident "pub"] :: read) = .ok (.struct item')) :
      item' = item := Item.struct.inj (Except.ok.inj (h.symm.trans hitem))
  obtain ⟨item', before, after, fields, generated, defs, hitem', -, -, hgenerated, -, hdefs,
    hconstants⟩ := expand_keeps hexpand fun item' hitem' ↦
      hsame hitem' ▸ (congrArg Tree.wordsOf hprint :)
  obtain rfl := hsame hitem'
  refine ⟨item', generated, defs, hitem', ?_, hdefs, hconstants.trans hshown⟩
  rw [hexpand, hgenerated, hkept]

end FieldPaths.Rust
