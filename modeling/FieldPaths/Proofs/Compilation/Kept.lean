import FieldPaths.Proofs.Compilation.Places
import FieldPaths.Proofs.SchemaFile.WellFormed
import Mathlib.Data.List.Forall2
import Mathlib.Data.List.Induction
import Mathlib.Data.List.Nodup

/-!
# Which declarations are kept

The collection goes through the sources once, with the declarations that it has kept so far. What it
keeps is told here without it: of every name the first declaration there is, and a report for each
of the others, in the order of the sources and whatever else is wrong with them.

What has been kept stays, and what has been reported too. So a compilation of more sources has the
types of the first ones in front, and whatever made these invalid.

A declaration is known by its place, because no two declarations are in one place: within a source
they come in the order of their names, and a place says which source it is in.
-/

namespace FieldPaths

variable {kept decls more : List (Declaration Span)}

/-! ## First and later declarations -/

/-- The elements of a list, each with those before it. -/
def withEarlier {α : Type} (l : List α) : List (List α × α) :=
  l.zipIdx.map fun (a, i) ↦ (l.take i, a)

/-- The declarations whose name none before them has. -/
def firstDeclarations (decls : List (Declaration Span)) : List (Declaration Span) :=
  ((withEarlier decls).filter fun (earlier, decl) ↦ decl.name ∉ namesOf earlier).map Prod.snd

/-- The declarations whose name is taken. -/
def laterDeclarations (decls : List (Declaration Span)) : List (Declaration Span) :=
  ((withEarlier decls).filter fun (earlier, decl) ↦ decl.name ∈ namesOf earlier).map Prod.snd

theorem withEarlier_concat {α : Type} (l : List α) (a : α) :
    withEarlier (l ++ [a]) = withEarlier l ++ [(l, a)] := by
  rw [withEarlier, withEarlier, List.zipIdx_append, List.map_append]
  refine congrArg₂ _ (List.map_congr_left fun (b, i) hb ↦ ?_) (by simp)
  obtain ⟨-, hi, -⟩ := List.mem_zipIdx hb
  dsimp only
  rw [List.take_append_of_le_length (by omega)]

variable {decl : Declaration Span}

theorem firstDeclarations_concat (decls : List (Declaration Span)) (decl : Declaration Span) :
    firstDeclarations (decls ++ [decl]) =
      if decl.name ∈ namesOf decls then firstDeclarations decls
      else firstDeclarations decls ++ [decl] := by
  rw [firstDeclarations, withEarlier_concat, List.filter_append, List.map_append,
    ← firstDeclarations]
  split <;> simp [*]

theorem laterDeclarations_concat (decls : List (Declaration Span)) (decl : Declaration Span) :
    laterDeclarations (decls ++ [decl]) =
      if decl.name ∈ namesOf decls then laterDeclarations decls ++ [decl]
      else laterDeclarations decls := by
  rw [laterDeclarations, withEarlier_concat, List.filter_append, List.map_append,
    ← laterDeclarations]
  split <;> simp [*]

/-! ## One pass -/

/-- A declaration of a name that is not taken is kept. -/
theorem keepFirst_concat_of_not_mem (hnew : decl.name ∉ namesOf decls) :
    keepFirst [] (decls ++ [decl])
      = ((keepFirst [] decls).1 ++ [decl], (keepFirst [] decls).2) := by
  have hfind : (keepFirst [] decls).1.find? (·.name == decl.name) = none := by
    rw [find?_eq_none_iff, mem_namesOf_keepFirst]
    exact fun h ↦ hnew (h.resolve_left List.not_mem_nil)
  rw [keepFirst_append, keepFirst, hfind]
  exact Prod.ext rfl (List.append_nil _)

/-- A declaration of a name that is taken is reported. -/
theorem keepFirst_concat_of_mem (htaken : decl.name ∈ namesOf decls) :
    ∃ first, (keepFirst [] decls).1.find? (·.name == decl.name) = some first ∧
      keepFirst [] (decls ++ [decl])
        = ((keepFirst [] decls).1, (keepFirst [] decls).2 ++ [duplicateDeclaration decl first]) := by
  cases hfind : (keepFirst [] decls).1.find? (·.name == decl.name) with
  | none =>
    rw [find?_eq_none_iff, mem_namesOf_keepFirst] at hfind
    exact absurd (.inr htaken) hfind
  | some first =>
    refine ⟨first, rfl, ?_⟩
    rw [keepFirst_append, keepFirst, hfind]
    rfl

/-- Of every name the first declaration is kept. -/
theorem keepFirst_eq_firstDeclarations (decls : List (Declaration Span)) :
    (keepFirst [] decls).1 = firstDeclarations decls := by
  induction decls using List.reverseRecOn with
  | nil => rfl
  | append_singleton decls decl ih =>
    rw [firstDeclarations_concat]
    split
    · obtain ⟨first, -, hkeep⟩ := keepFirst_concat_of_mem ‹_›
      rw [hkeep, ih]
    · rw [keepFirst_concat_of_not_mem ‹_›, ih]

/-- What is looked up stays the same when more is kept. -/
theorem find?_append_of_eq_some {p : Declaration Span → Bool} {first : Declaration Span}
    (h : kept.find? p = some first) (more : List (Declaration Span)) :
    (kept ++ more).find? p = some first := by
  rw [List.find?_append, h, Option.some_or]

/-- Each of the others is reported, beside the one that is kept. -/
theorem keepFirst_reports (decls : List (Declaration Span)) :
    List.Forall₂ (fun decl d ↦ ∃ first,
        (keepFirst [] decls).1.find? (·.name == decl.name) = some first ∧
          d = duplicateDeclaration decl first)
      (laterDeclarations decls) (keepFirst [] decls).2 := by
  induction decls using List.reverseRecOn with
  | nil => exact .nil
  | append_singleton decls decl ih =>
    rw [laterDeclarations_concat]
    split
    · obtain ⟨first, hfind, hkeep⟩ := keepFirst_concat_of_mem ‹_›
      rw [hkeep]
      exact List.rel_append ih (.cons ⟨first, hfind, rfl⟩ .nil)
    · rw [keepFirst_concat_of_not_mem ‹_›]
      refine ih.imp fun decl' d ↦ ?_
      rintro ⟨first, hfind, rfl⟩
      exact ⟨first, find?_append_of_eq_some hfind [decl], rfl⟩

theorem keepFirst_nodup (hkept : (namesOf kept).Nodup) (decls : List (Declaration Span)) :
    (namesOf (keepFirst kept decls).1).Nodup := by
  induction decls generalizing kept with
  | nil => exact hkept
  | cons decl more ih =>
    rw [keepFirst]
    split
    · exact ih (nodup_concat hkept (find?_eq_none_iff.mp ‹_›))
    · exact ih hkept

/-- What is kept stays in front. -/
theorem keepFirst_prefix (kept decls : List (Declaration Span)) :
    kept <+: (keepFirst kept decls).1 := by
  induction decls generalizing kept with
  | nil => exact List.prefix_refl kept
  | cons decl more ih =>
    rw [keepFirst]
    split
    · exact (List.prefix_append kept [decl]).trans (ih _)
    · exact ih kept

/-- Nothing else is kept. -/
theorem keepFirst_subset (kept decls : List (Declaration Span)) :
    (keepFirst kept decls).1 ⊆ kept ++ decls := by
  induction decls generalizing kept with
  | nil => exact List.subset_append_left ..
  | cons decl more ih =>
    rw [keepFirst]
    split
    · have hmore := ih (kept ++ [decl])
      rwa [← List.append_cons] at hmore
    · have hmore : kept ++ more ⊆ kept ++ decl :: more :=
        ((List.sublist_cons_self decl more).append_left kept).subset
      exact List.Subset.trans (ih kept) hmore

theorem keepFirst_kind (kept decls : List (Declaration Span)) :
    ∀ d ∈ (keepFirst kept decls).2, d.kind = .duplicateDeclaration := by
  induction decls generalizing kept with
  | nil => nofun
  | cons decl more ih =>
    rw [keepFirst]
    split
    · exact ih _
    · exact List.forall_mem_cons.mpr ⟨rfl, ih _⟩

/-! ## All sources -/

theorem Fault.diagnostic_kind_ne (φ : Fault) (index : Nat) (text : String) :
    (φ.diagnostic index text).kind ≠ .duplicateDeclaration := by
  have hwanted (wanted : Wanted) : wanted.kind ≠ .duplicateDeclaration := by
    cases wanted <;> simp [Wanted.kind]
  rcases φ with ⟨wanted, _ | ⟨t, left⟩⟩ | ⟨t, left⟩ | ⟨name, brace⟩
  · exact hwanted wanted
  · by_cases h : t.kind = .garbage <;> simp [diagnostic, h, hwanted]
  · simp [diagnostic]
  · simp [diagnostic]

/-- The sources are no more than the declarations in them, as far as these are kept. -/
theorem collect_declarations (kept : List (Declaration Span)) (index : Nat)
    (sources : List Source) :
    (collect kept index sources).1 = (keepFirst kept (parsedFrom index sources)).1 := by
  induction sources generalizing kept index with
  | nil => rfl
  | cons source more ih =>
    rw [collect, parsedFrom_cons, keepFirst_append]
    exact ih _ _

/-- Only a name that is declared again is reported as that. -/
theorem collect_repeated (kept : List (Declaration Span)) (index : Nat) (sources : List Source) :
    (collect kept index sources).2.filter (·.kind = .duplicateDeclaration)
      = (keepFirst kept (parsedFrom index sources)).2 := by
  induction sources generalizing kept index with
  | nil => rfl
  | cons source more ih =>
    have hfault : (SchemaFile.read index source.text).diagnostic.toList.filter
        (·.kind = .duplicateDeclaration) = [] := by
      rw [List.filter_eq_nil_iff]
      intro d hd
      rw [SchemaFile.read_diagnostic, Option.mem_toList, Option.map_eq_some_iff] at hd
      obtain ⟨φ, -, rfl⟩ := hd
      simpa using φ.diagnostic_kind_ne index source.text
    have hrepeated : (keepFirst kept (SchemaFile.read index source.text).declarations).2.filter
        (·.kind = .duplicateDeclaration)
          = (keepFirst kept (SchemaFile.read index source.text).declarations).2 := by
      rw [List.filter_eq_self]
      exact fun d hd ↦ decide_eq_true (keepFirst_kind _ _ d hd)
    rw [collect, parsedFrom_cons, keepFirst_append]
    dsimp only
    rw [List.filter_append, List.filter_append, hfault, hrepeated, ih]
    rfl

/-- Collecting goes on where the first sources left off. -/
theorem collect_append (kept : List (Declaration Span)) (index : Nat)
    (sources more : List Source) :
    collect kept index (sources ++ more)
      = let (first, ds) := collect kept index sources
        let (all, es) := collect first (index + sources.length) more
        (all, ds ++ es) := by
  induction sources generalizing kept index with
  | nil => rfl
  | cons source sources ih =>
    rw [List.cons_append, collect, collect]
    dsimp only
    rw [ih]
    simp only [List.length_cons, List.append_assoc, Nat.add_assoc, Nat.add_comm 1]

/-! ## Places -/

/-- A name stands in one of the sources, and the place is where. -/
def IsNameAt (sources : List Source) (name : String) (location : Span) : Prop :=
  ∃ source, sources[location.source]? = some source ∧
    (∃ after, Token.StandsAt source.text location.start name.toList after) ∧
    location.stop = location.start + name.utf8ByteSize

theorem mem_parsedFrom {index : Nat} {sources : List Source}
    (h : decl ∈ parsedFrom index sources) : ∃ i source, sources[i]? = some source ∧
      decl ∈ (SchemaFile.read (index + i) source.text).declarations := by
  obtain ⟨⟨source, i⟩, hs, hdecl⟩ := List.mem_flatMap.mp h
  rw [List.mem_zipIdx_iff_le_and_getElem?_sub] at hs
  obtain ⟨hle, hsource⟩ := hs
  refine ⟨i - index, source, hsource, ?_⟩
  rwa [Nat.add_sub_cancel' hle]

/-- A place says which source it is in. -/
theorem source_of_mem_read {index : Nat} {text : String}
    (h : decl ∈ (SchemaFile.read index text).declarations) : decl.location.source = index := by
  obtain ⟨t, -, -, -, hlocation⟩ := SchemaFile.isNameIn_of_mem_read h
  rw [hlocation]
  rfl

/-- No two declarations are in one place. -/
theorem parsedFrom_location_nodup (index : Nat) (sources : List Source) :
    ((parsedFrom index sources).map (·.location)).Nodup := by
  induction sources generalizing index with
  | nil => exact List.nodup_nil
  | cons source more ih =>
    rw [parsedFrom_cons, List.map_append, List.nodup_append]
    refine ⟨?_, ih _, ?_⟩
    · rw [List.Nodup, List.pairwise_map]
      refine (SchemaFile.read_ordered index source.text).imp fun hlt heq ↦ ?_
      exact absurd (congrArg Span.start heq) (Nat.ne_of_lt hlt)
    · rintro _ ha _ hb rfl
      obtain ⟨decl, hdecl, hlocation⟩ := List.mem_map.mp ha
      obtain ⟨decl', hdecl', rfl⟩ := List.mem_map.mp hb
      obtain ⟨i, source', -, hread⟩ := mem_parsedFrom hdecl'
      have hsource := congrArg Span.source hlocation
      rw [source_of_mem_read hdecl, source_of_mem_read hread] at hsource
      omega

theorem parsedFrom_isNameAt (sources : List Source) :
    ∀ decl ∈ parsedFrom 0 sources, IsNameAt sources decl.name decl.location := by
  intro decl hdecl
  obtain ⟨i, source, hsource, hread⟩ := mem_parsedFrom hdecl
  rw [Nat.zero_add] at hread
  obtain ⟨t, ht, -, hname, hlocation⟩ := SchemaFile.isNameIn_of_mem_read hread
  obtain ⟨after, hstands, -⟩ := Token.exists_standsAt_of_mem_scan ht
  rw [hname, hlocation]
  exact ⟨source, hsource, ⟨after, hstands⟩, rfl⟩

/-! ## The first declaration of a name -/

/-- One of several elements with different names is the one of its name. -/
theorem find?_of_nodup {α : Type} {name : α → String} {l : List α} {a : α}
    (hnames : (l.map name).Nodup) (ha : a ∈ l) : l.find? (name · == name a) = some a := by
  cases hfind : l.find? (name · == name a) with
  | none =>
    rw [List.find?_eq_none] at hfind
    exact absurd (beq_self_eq_true (name a)) (hfind a ha)
  | some first =>
    have hname : name first = name a := beq_iff_eq.mp (List.find?_some hfind :)
    rw [List.inj_on_of_nodup_map hnames (List.mem_of_find?_eq_some hfind) ha hname]

variable (sources : List Source) (leaves : LeafTable) (selection : Selection)

theorem compile_declarations : (compile sources leaves selection).declarations
    = (keepFirst [] (parsedFrom 0 sources)).1 := collect_declarations [] 0 sources

theorem compile_declarations_nodup :
    (namesOf (compile sources leaves selection).declarations).Nodup := by
  have hnil : (namesOf []).Nodup := List.nodup_nil
  rw [compile_declarations]
  exact keepFirst_nodup hnil _

theorem Declaration.diagnostics_kind_ne (decl : Declaration Span) (leaves : LeafTable) :
    ∀ d ∈ decl.diagnostics leaves, d.kind ≠ .duplicateDeclaration := by
  rw [diagnostics]
  split
  · simp
  · intro d hd
    obtain ⟨⟨error | _, location⟩, -, rfl⟩ := List.mem_map.mp hd <;> simp [Located.diagnostic]

/-- What a compilation reports as declared again is what its collection does. -/
theorem compile_repeated : (compile sources leaves selection).diagnostics.filter
    (·.kind = .duplicateDeclaration) = (keepFirst [] (parsedFrom 0 sources)).2 := by
  have hselected : (((collect [] 0 sources).1.filter selection.selects).flatMap
      (·.diagnostics leaves)).filter (·.kind = .duplicateDeclaration) = [] := by
    rw [List.filter_eq_nil_iff]
    intro d hd
    obtain ⟨decl, -, hd⟩ := List.mem_flatMap.mp hd
    simpa using decl.diagnostics_kind_ne leaves d hd
  rw [compile]
  dsimp only
  rw [List.filter_append, collect_repeated, hselected, List.append_nil]

/-- The diagnostic says that the declaration is one of a name that is taken: it is at the
declaration and refers to the one that is kept. -/
structure Compilation.Reports (c : Compilation) (decl : Declaration Span) (d : Diagnostic) :
    Prop where
  span : d.span = decl.location
  related : ∃ first, c.declaration? decl.name = some first ∧
    d.related.map (·.span) = [first.location]

/-- **The first declaration of a name is kept.** What is kept are the first declarations of all
names that there are, and names come once. The others are reported, each by one diagnostic and in
their order, at the place where its name stands, which is no other declaration's place. A type has
been made from the declaration that its name is looked up to. -/
theorem compile_keeps_first (sources : List Source) (leaves : LeafTable) (selection : Selection) :
    let c := compile sources leaves selection
    let parsed := parsedFrom 0 sources
    (namesOf c.declarations).Nodup ∧ c.declarations = firstDeclarations parsed ∧
      List.Forall₂ c.Reports (laterDeclarations parsed)
        (c.diagnostics.filter (·.kind = .duplicateDeclaration)) ∧
      (parsed.map (·.location)).Nodup ∧
      (∀ decl ∈ parsed, IsNameAt sources decl.name decl.location) ∧
      List.Forall₂ (fun decl type ↦ type = decl.schema leaves ∧
          c.declaration? type.name = some decl)
        (c.declarations.filter selection.selects) c.types := by
  intro c parsed
  have hnames : (namesOf c.declarations).Nodup :=
    compile_declarations_nodup sources leaves selection
  have hkept : c.declarations = (keepFirst [] parsed).1 :=
    compile_declarations sources leaves selection
  have hrepeated : c.diagnostics.filter (·.kind = .duplicateDeclaration)
      = (keepFirst [] parsed).2 := compile_repeated sources leaves selection
  refine ⟨hnames, hkept.trans (keepFirst_eq_firstDeclarations parsed), ?_,
    parsedFrom_location_nodup 0 sources, parsedFrom_isNameAt sources, ?_⟩
  · rw [hrepeated]
    refine (keepFirst_reports parsed).imp fun decl d ↦ ?_
    rintro ⟨first, hfind, rfl⟩
    refine ⟨rfl, first, ?_, rfl⟩
    rw [Compilation.declaration?, hkept, hfind]
  · have htypes : c.types = (c.declarations.filter selection.selects).map (·.schema leaves) := rfl
    rw [htypes, List.forall₂_map_right_iff, List.forall₂_same]
    intro decl hdecl
    exact ⟨rfl, find?_of_nodup hnames (List.mem_filter.mp hdecl).1⟩

/-- A name that the second source declares again, before a fault that is reported first. -/
theorem compile_keeps_first_again :
    let sources : List Source := [⟨.inline, "class A \x7b \x7d class B \x7b \x7d"⟩,
      ⟨.inline, "class A \x7b a: int \x7d class"⟩]
    let c := compile sources {} .marked
    namesOf c.declarations = ["A", "B"] ∧ ∃ decl d, decl.location = ⟨1, 6, 7⟩ ∧
      c.diagnostics.filter (·.kind = .duplicateDeclaration) = [d] ∧ c.Reports decl d := by
  intro sources c
  obtain ⟨-, -, hreports, -⟩ := compile_keeps_first sources {} .marked
  have hlater : ∃ decl ∈ laterDeclarations (parsedFrom 0 sources),
      decl.location = ⟨1, 6, 7⟩ ∧ laterDeclarations (parsedFrom 0 sources) = [decl] := by
    decide +kernel
  obtain ⟨decl, -, hlocation, hlater⟩ := hlater
  rw [hlater, List.forall₂_cons_left_iff] at hreports
  obtain ⟨d, more, hd, hmore, hds⟩ := hreports
  rw [List.forall₂_nil_left_iff.mp hmore] at hds
  exact ⟨by decide +kernel, decl, d, hlocation, hds, hd⟩

/-! ## More sources -/

theorem collect_append_prefix (more : List Source) :
    (collect [] 0 sources).1 <+: (collect [] 0 (sources ++ more)).1 := by
  rw [collect_append]
  dsimp only
  rw [collect_declarations (collect [] 0 sources).1]
  exact keepFirst_prefix _ _

/-- Among more declarations, fewer patterns describe nothing. -/
theorem Selection.unmatched_sublist (h : decls ⊆ more) :
    (selection.unmatched more).Sublist (selection.unmatched decls) := by
  cases selection with
  | marked => exact List.Sublist.refl _
  | names patterns =>
    refine List.monotone_filter_right patterns fun pattern hnone ↦ ?_
    rw [Bool.not_eq_true', List.any_eq_false] at hnone ⊢
    exact fun decl hdecl ↦ hnone decl (h hdecl)

/-- **More sources only add.** The declarations and the types of the first sources are in front of
all of them, in their places. What makes the first sources invalid makes all of them invalid, and a
pattern that describes something among the first sources does so among all of them. -/
theorem compile_append (more : List Source) :
    let c := compile sources leaves selection
    let c' := compile (sources ++ more) leaves selection
    c.types <+: c'.types ∧ c.declarations <+: c'.declarations ∧
      (c.isValid = false → c'.isValid = false) ∧ c'.unmatched.Sublist c.unmatched := by
  intro c c'
  have hdecls : c.declarations <+: c'.declarations := collect_append_prefix sources more
  refine ⟨(hdecls.filter selection.selects).map _, hdecls, fun hinvalid ↦ ?_, ?_⟩
  · rw [← Bool.not_eq_true] at hinvalid ⊢
    intro hvalid
    refine hinvalid ?_
    rw [compile_isValid] at hvalid ⊢
    obtain ⟨hnil, hselected⟩ := hvalid
    rw [collect_append] at hnil
    exact ⟨(List.append_eq_nil_iff.mp hnil).1, fun decl hdecl ↦
      hselected decl (hdecls.subset hdecl)⟩
  · exact selection.unmatched_sublist hdecls.subset

/-- A body that is not closed, whatever comes in another source. -/
theorem compile_append_open :
    let first : List Source := [⟨.inline, "class A \x7b a: int"⟩]
    let more : List Source := [⟨.inline, "@Schema class B \x7b b: A \x7d"⟩]
    (compile first {} .marked).isValid = false ∧
      (compile (first ++ more) {} .marked).isValid = false := by
  intro first more
  have hinvalid : (compile first {} .marked).isValid = false := by decide +kernel
  exact ⟨hinvalid, (compile_append first {} .marked more).2.2.1 hinvalid⟩

end FieldPaths
