import FieldPaths.Proofs.Compilation
import FieldPaths.Proofs.Grammar.Places
import Mathlib.Data.List.Forall2

/-!
# Places play no part in a compilation

A compilation is decided by what its sources declare. Where they declare it shows in the places that
declarations, types and diagnostics carry along, and nowhere else: which declaration of a name is
kept, which descriptors it gets and what there is to say about it is the same without the places.

Declarations are compared by `Declaration.unplaced`, as in reading. What comes out at the end is
compared by its content, which has no places.
-/

namespace FieldPaths

/-! ## Contents -/

/-- All of a type but its place. -/
def TypeSchema.content (type : TypeSchema) : String × DeclKind × Bool × List Descriptor :=
  (type.name, type.kind, type.isValid, type.descriptors)

/-- All that a diagnostic says, without the places it speaks of. -/
def Diagnostic.content (d : Diagnostic) :
    DiagnosticKind × String × List String × List String × Option Fix :=
  (d.kind, d.message, d.hints, d.related.map (·.message), d.fix)

/-! ## Selected declarations -/

variable (leaves : LeafTable) (selection : Selection)

namespace Declaration

variable (decl : Declaration Span)

theorem selects_unplaced : selection.selects decl.unplaced = selection.selects decl :=
  Selection.selects_mapLocation ..

theorem synthesis_unplaced :
    decl.unplaced.synthesis leaves = (decl.synthesis leaves).mapLocation Span.unplaced :=
  synthesis_mapLocation ..

theorem synthesis_errors_unplaced :
    (decl.unplaced.synthesis leaves).errors = [] ↔ (decl.synthesis leaves).errors = [] := by
  rw [synthesis_unplaced, Synthesis.mapLocation, List.map_eq_nil_iff]

theorem schema_content_unplaced :
    (decl.unplaced.schema leaves).content = (decl.schema leaves).content := by
  rw [TypeSchema.content, TypeSchema.content, schema, schema, synthesis_unplaced]
  dsimp only
  rw [Synthesis.isValid_mapLocation, Synthesis.descriptors_mapLocation]
  rfl

theorem diagnostics_content_unplaced : (decl.unplaced.diagnostics leaves).map Diagnostic.content
    = (decl.diagnostics leaves).map Diagnostic.content := by
  have hcontent (located : Located Span) :
      (located.mapLocation Span.unplaced).diagnostic.content = located.diagnostic.content := by
    obtain ⟨error | _, location⟩ := located <;> rfl
  rw [diagnostics, diagnostics, synthesis_unplaced, Synthesis.isValid_mapLocation,
    Synthesis.descriptors_mapLocation]
  split
  · rfl
  · rw [Synthesis.mapLocation, List.map_map, List.map_map, List.map_map]
    exact List.map_congr_left fun located _ ↦ hcontent located

end Declaration

section Selected

variable (decls : List (Declaration Span))

theorem selected_unplaced : (decls.map Declaration.unplaced).filter selection.selects
    = (decls.filter selection.selects).map Declaration.unplaced := by
  rw [List.filter_map]
  refine congrArg _ (List.filter_congr fun decl _ ↦ ?_)
  exact decl.selects_unplaced selection

theorem schemas_content_unplaced : (((decls.map Declaration.unplaced).filter selection.selects).map
      (·.schema leaves)).map TypeSchema.content
    = ((decls.filter selection.selects).map (·.schema leaves)).map TypeSchema.content := by
  rw [selected_unplaced, List.map_map, List.map_map, List.map_map]
  exact List.map_congr_left fun decl _ ↦ decl.schema_content_unplaced leaves

theorem diagnostics_content_unplaced :
    (((decls.map Declaration.unplaced).filter selection.selects).flatMap
        (·.diagnostics leaves)).map Diagnostic.content
      = ((decls.filter selection.selects).flatMap (·.diagnostics leaves)).map
          Diagnostic.content := by
  rw [selected_unplaced, List.flatMap_map, List.map_flatMap, List.map_flatMap]
  exact List.flatMap_congr fun decl _ ↦ decl.diagnostics_content_unplaced leaves

theorem namesOf_unplaced : namesOf (decls.map Declaration.unplaced) = namesOf decls := by
  rw [namesOf, namesOf, List.map_map]
  rfl

/-- Which patterns describe nothing is a matter of the names there are. -/
theorem unmatched_congr {decls decls' : List (Declaration Span)}
    (h : ∀ name, name ∈ namesOf decls ↔ name ∈ namesOf decls') :
    selection.unmatched decls = selection.unmatched decls' := by
  have hany (decls : List (Declaration Span)) (pattern : String) :
      (decls.any fun decl ↦ Wildcard.accepts pattern decl.name) = true
        ↔ ∃ name ∈ namesOf decls, Wildcard.accepts pattern name = true := by
    simp [namesOf]
  cases selection with
  | marked => rfl
  | names patterns =>
    refine List.filter_congr fun pattern _ ↦ congrArg _ ?_
    rw [Bool.eq_iff_iff, hany, hany]
    simp only [h]

end Selected

/-! ## Collecting -/

section Collecting

variable (kept decls more : List (Declaration Span))

section Rel

variable {R : Declaration Span → Declaration Span → Prop}
  (hname : ∀ decl decl', R decl decl' → decl.name = decl'.name)
  {kept kept' decls decls' : List (Declaration Span)}

include hname

theorem namesOf_rel (h : List.Forall₂ R decls decls') : namesOf decls = namesOf decls' := by
  rw [namesOf, namesOf, ← List.forall₂_eq_eq_eq, List.forall₂_map_left_iff,
    List.forall₂_map_right_iff]
  exact h.imp hname

/-- Which declarations are kept and which are reported is decided by their names. -/
theorem keepFirst_rel (hkept : List.Forall₂ R kept kept') (h : List.Forall₂ R decls decls') :
    List.Forall₂ R (keepFirst kept decls).1 (keepFirst kept' decls').1 ∧
      (keepFirst kept decls).2.map Diagnostic.content
        = (keepFirst kept' decls').2.map Diagnostic.content := by
  induction h generalizing kept kept' with
  | nil => exact ⟨hkept, rfl⟩
  | @cons decl decl' more more' hrel _ ih =>
    have hsame := hname decl decl' hrel
    -- a name is taken in both or in neither
    have hnew : kept.find? (·.name == decl.name) = none ↔
        kept'.find? (·.name == decl'.name) = none := by
      rw [find?_eq_none_iff, find?_eq_none_iff, namesOf_rel hname hkept, hsame]
    rw [keepFirst, keepFirst]
    cases hfind : kept.find? (·.name == decl.name) with
    | none =>
      rw [hnew.mp hfind]
      exact ih (List.rel_append hkept (.cons hrel .nil))
    | some first =>
      cases hfind' : kept'.find? (·.name == decl'.name) with
      | none =>
        rw [hnew.mpr hfind'] at hfind
        cases hfind
      | some first' =>
        obtain ⟨hall, hreported⟩ := ih hkept
        refine ⟨hall, congrArg₂ List.cons ?_ hreported⟩
        simp [duplicateDeclaration, Diagnostic.content, Diagnostic.message, Diagnostic.hints, hsame]

end Rel

/-- Which declarations of a name come first does not depend on their places. -/
theorem keepFirst_unplaced :
    (keepFirst (kept.map Declaration.unplaced) (decls.map Declaration.unplaced)).1
        = (keepFirst kept decls).1.map Declaration.unplaced ∧
      (keepFirst (kept.map Declaration.unplaced) (decls.map Declaration.unplaced)).2.map
          Diagnostic.content = (keepFirst kept decls).2.map Diagnostic.content := by
  have hrel (decls : List (Declaration Span)) : List.Forall₂ (fun decl decl' ↦ decl = decl'.unplaced)
      (decls.map Declaration.unplaced) decls :=
    List.forall₂_map_left_iff.mpr (List.forall₂_same.mpr fun _ _ ↦ rfl)
  have hname (decl decl' : Declaration Span) (h : decl = decl'.unplaced) : decl.name = decl'.name :=
    h ▸ rfl
  obtain ⟨hkept, hdiagnostics⟩ := keepFirst_rel hname (hrel kept) (hrel decls)
  rw [← List.forall₂_map_right_iff, List.forall₂_eq_eq_eq] at hkept
  exact ⟨hkept, hdiagnostics⟩

theorem keepFirst_append : keepFirst kept (decls ++ more)
    = ((keepFirst (keepFirst kept decls).1 more).1,
        (keepFirst kept decls).2 ++ (keepFirst (keepFirst kept decls).1 more).2) := by
  induction decls generalizing kept with
  | nil => rfl
  | cons decl decls ih =>
    rw [List.cons_append, keepFirst, keepFirst]
    cases kept.find? (·.name == decl.name) with
    | none => exact ih _
    | some first =>
      dsimp only
      rw [ih]
      rfl

/-- Every name is kept. -/
theorem mem_namesOf_keepFirst (name : String) : name ∈ namesOf (keepFirst kept decls).1 ↔
    name ∈ namesOf kept ∨ name ∈ namesOf decls := by
  induction decls generalizing kept with
  | nil => simp [keepFirst, namesOf]
  | cons decl more ih =>
    rw [keepFirst]
    cases hfirst : kept.find? (·.name == decl.name) with
    | none =>
      dsimp only
      rw [ih, namesOf_append]
      simp [namesOf, or_assoc]
    | some first =>
      have hmem : decl.name ∈ namesOf kept := by
        by_contra hnew
        rw [find?_eq_none_iff.mpr hnew] at hfirst
        cases hfirst
      have hnames : namesOf (decl :: more) = decl.name :: namesOf more := rfl
      dsimp only
      rw [ih, hnames, List.mem_cons]
      constructor
      · exact Or.imp_right Or.inr
      · rintro (hname | rfl | hname)
        · exact .inl hname
        · exact .inl hmem
        · exact .inr hname

theorem mem_namesOf_collect (index : Nat) (sources : List Source) (name : String) :
    name ∈ namesOf (collect kept index sources).1 ↔
      name ∈ namesOf kept ∨ name ∈ namesOf (parsedFrom index sources) := by
  induction sources generalizing kept index with
  | nil => simp [collect, parsedFrom, namesOf]
  | cons source more ih =>
    rw [collect, parsedFrom_cons, namesOf_append, List.mem_append, ← or_assoc,
      ← mem_namesOf_keepFirst]
    exact ih _ _

/-- Where every text is a schema file, sources are no more than the declarations in them. -/
theorem collect_of_valid (index : Nat) (sources : List Source)
    (h : ∀ s ∈ sources.zipIdx index, (SchemaFile.read s.2 s.1.text).diagnostic = none) :
    collect kept index sources = keepFirst kept (parsedFrom index sources) := by
  induction sources generalizing kept index with
  | nil => rfl
  | cons source more ih =>
    rw [List.zipIdx_cons, List.forall_mem_cons] at h
    rw [collect, parsedFrom_cons, keepFirst_append, h.1]
    dsimp only
    rw [ih _ _ h.2]
    rfl

end Collecting

/-! ## Compilations -/

/-- **Compilations of schema files that declare the same.** They have the same types, and there is
the same to say about them. -/
theorem compile_congr {sources sources' : List Source}
    (h : ∀ s ∈ sources.zipIdx, (SchemaFile.read s.2 s.1.text).diagnostic = none)
    (h' : ∀ s ∈ sources'.zipIdx, (SchemaFile.read s.2 s.1.text).diagnostic = none)
    (hparsed : (parsedFrom 0 sources).map Declaration.unplaced
      = (parsedFrom 0 sources').map Declaration.unplaced) :
    (compile sources leaves selection).types.map TypeSchema.content
        = (compile sources' leaves selection).types.map TypeSchema.content ∧
      (compile sources leaves selection).declarations.map Declaration.unplaced
        = (compile sources' leaves selection).declarations.map Declaration.unplaced ∧
      (compile sources leaves selection).unmatched
        = (compile sources' leaves selection).unmatched ∧
      (compile sources leaves selection).diagnostics.map Diagnostic.content
        = (compile sources' leaves selection).diagnostics.map Diagnostic.content := by
  obtain ⟨hkept, hdiagnostics⟩ := keepFirst_unplaced [] (parsedFrom 0 sources)
  obtain ⟨hkept', hdiagnostics'⟩ := keepFirst_unplaced [] (parsedFrom 0 sources')
  rw [hparsed] at hkept hdiagnostics
  have hdecls := hkept.symm.trans hkept'
  have hrepeated := hdiagnostics.symm.trans hdiagnostics'
  rw [compile, compile, collect_of_valid [] 0 sources h, collect_of_valid [] 0 sources' h']
  refine ⟨?_, hdecls, ?_, ?_⟩
  · rw [← schemas_content_unplaced, hdecls, schemas_content_unplaced]
  · refine unmatched_congr selection fun name ↦ ?_
    rw [← namesOf_unplaced, hdecls, namesOf_unplaced]
  · dsimp only
    rw [List.map_append, List.map_append, hrepeated, ← diagnostics_content_unplaced, hdecls,
      diagnostics_content_unplaced]

end FieldPaths
