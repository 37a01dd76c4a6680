import FieldPaths.DecisionTable
import FieldPaths.Generated.Document
import FieldPaths.Generated.Items
import FieldPaths.Proofs.Names
import Mathlib.Data.List.Forall2

/-!
# What is not selected

A compilation keeps all declarations, and most of what comes of it is about those that are selected.
Of the others it needs the names: to see which declaration of a name comes first, and which patterns
of the selection describe something. What else they say is read and then left alone.

Two runs are compared that know the same names in the same order and differ in what is not selected
(`Selection.Alike`). The collection keeps declarations by their names, so it keeps alike ones, and
those of them that are selected are the same but for their places. Everything after it starts
from these.
-/

namespace FieldPaths

/-! ## Declarations that are alike -/

/-- All of a declaration but its places. -/
def Declaration.content (decl : Declaration Span) : Declaration Unit := decl.mapLocation fun _ ↦ ()

/-- The declarations have one name and, if one of them is selected, the same content. -/
def Selection.Alike (selection : Selection) (decl decl' : Declaration Span) : Prop :=
  decl.name = decl'.name ∧
    (selection.selects decl = true ∨ selection.selects decl' = true → decl.content = decl'.content)

instance (selection : Selection) : DecidableRel selection.Alike :=
  fun _ _ ↦ inferInstanceAs (Decidable (_ ∧ _))

/-- Where a function sees no more than another one, lists that are the same to the one are the same
to the other. -/
theorem map_eq_map_of_key {α β γ : Type} {f : α → β} {key : α → γ}
    (hf : ∀ a b, key a = key b → f a = f b) {l l' : List α} (h : l.map key = l'.map key) :
    l.map f = l'.map f := by
  rw [← List.forall₂_eq_eq_eq, List.forall₂_map_left_iff, List.forall₂_map_right_iff] at h ⊢
  exact h.imp hf

namespace Declaration

variable {decl decl' : Declaration Span} (h : decl.content = decl'.content) (leaves : LeafTable)

include h

theorem selects_of_content (selection : Selection) :
    selection.selects decl = selection.selects decl' := by
  have hselects := congrArg selection.selects h
  rwa [content, content, Selection.selects_mapLocation, Selection.selects_mapLocation] at hselects

theorem synthesis_of_content :
    (decl.synthesis leaves).mapLocation (fun _ ↦ ())
      = (decl'.synthesis leaves).mapLocation fun _ ↦ () := by
  have hsynthesis := congrArg (synthesis · leaves) h
  rwa [content, content, synthesis_mapLocation, synthesis_mapLocation] at hsynthesis

theorem isValid_of_content :
    (decl.synthesis leaves).isValid = (decl'.synthesis leaves).isValid := by
  have hvalid := congrArg Synthesis.isValid (synthesis_of_content h leaves)
  rwa [Synthesis.isValid_mapLocation, Synthesis.isValid_mapLocation] at hvalid

theorem descriptors_of_content :
    (decl.synthesis leaves).descriptors = (decl'.synthesis leaves).descriptors := by
  have hdescriptors := congrArg Synthesis.descriptors (synthesis_of_content h leaves)
  rwa [Synthesis.descriptors_mapLocation, Synthesis.descriptors_mapLocation] at hdescriptors

theorem schema_of_content : (decl.schema leaves).content = (decl'.schema leaves).content := by
  rw [TypeSchema.content, TypeSchema.content, schema, schema]
  dsimp only
  rw [isValid_of_content h, descriptors_of_content h]
  obtain ⟨hname, hkind, -⟩ := Declaration.mk.inj h
  rw [hname, hkind]

theorem diagnostics_of_content : (decl.diagnostics leaves).map Diagnostic.content
    = (decl'.diagnostics leaves).map Diagnostic.content := by
  have hlocated (a b : Located Span) (heq : a.error = b.error) :
      a.diagnostic.content = b.diagnostic.content := by
    obtain ⟨error, location⟩ := a
    obtain rfl : error = b.error := heq
    cases h : b.error <;> simp [Located.diagnostic, Diagnostic.content, Diagnostic.message,
      Diagnostic.hints, h]
  have herrors := congrArg (fun synthesis ↦ synthesis.errors.map (·.error))
    (synthesis_of_content h leaves)
  dsimp only [Synthesis.mapLocation] at herrors
  rw [List.map_map, List.map_map] at herrors
  have hname : decl.name = decl'.name := (Declaration.mk.inj h).1
  rw [diagnostics, diagnostics, isValid_of_content h, descriptors_of_content h]
  split
  · simp [Diagnostic.content, Diagnostic.message, Diagnostic.hints, hname]
  · rw [List.map_map, List.map_map]
    exact map_eq_map_of_key hlocated herrors

end Declaration

/-! ## Collecting -/

section Collecting

variable {selection : Selection} {kept kept' decls decls' : List (Declaration Span)}

theorem Selection.Alike.selects_eq {decl decl' : Declaration Span}
    (h : selection.Alike decl decl') : selection.selects decl = selection.selects decl' := by
  rw [Bool.eq_iff_iff]
  constructor
  · intro hselects
    rwa [← Declaration.selects_of_content (h.2 (.inl hselects))]
  · intro hselects
    rwa [Declaration.selects_of_content (h.2 (.inr hselects))]

theorem namesOf_of_alike (h : List.Forall₂ selection.Alike decls decls') :
    namesOf decls = namesOf decls' := namesOf_rel (fun _ _ halike ↦ halike.1) h

/-- Of alike declarations, alike ones are kept and the same names reported. -/
theorem keepFirst_alike (hkept : List.Forall₂ selection.Alike kept kept')
    (h : List.Forall₂ selection.Alike decls decls') :
    List.Forall₂ selection.Alike (keepFirst kept decls).1 (keepFirst kept' decls').1 ∧
      (keepFirst kept decls).2.map Diagnostic.content
        = (keepFirst kept' decls').2.map Diagnostic.content :=
  keepFirst_rel (fun _ _ halike ↦ halike.1) hkept h

/-- What is selected of alike declarations is the same but for its places. -/
theorem selected_of_alike (h : List.Forall₂ selection.Alike decls decls') :
    (decls.filter selection.selects).map Declaration.content
      = (decls'.filter selection.selects).map Declaration.content := by
  induction h with
  | nil => rfl
  | cons halike _ ih =>
    rw [List.filter_cons, List.filter_cons, halike.selects_eq]
    split
    · rename_i hselects
      rw [List.map_cons, List.map_cons, ih, halike.2 (.inr hselects)]
    · exact ih

end Collecting

/-! ## Tables -/

namespace DecisionTable

theorem row_of_content (leaves : LeafTable) (descriptors : List Descriptor) (field field' : Field Span)
    (h : field.mapLocation (fun _ ↦ ()) = field'.mapLocation fun _ ↦ ()) :
    row leaves descriptors field = row leaves descriptors field' := by
  obtain ⟨hname, htype, hmodifiers, hattributes, -⟩ := Field.mk.inj h
  have hexclusion : field.exclusion = field'.exclusion := by
    rw [Field.exclusion, Field.exclusion, hmodifiers, hattributes]
  rw [row, row, decision, decision, members, members, hexclusion, hname, htype]

theorem block_of_content {decl decl' : Declaration Span} (h : decl.content = decl'.content)
    (leaves : LeafTable) (descriptors : List Descriptor) :
    block leaves decl descriptors = block leaves decl' descriptors := by
  obtain ⟨hname, hkind, -, hfields, -⟩ := Declaration.mk.inj h
  have hrows : decl.fields.map (row leaves descriptors) = decl'.fields.map (row leaves descriptors) :=
    map_eq_map_of_key (row_of_content leaves descriptors) hfields
  have hempty : decl.fields.isEmpty = decl'.fields.isEmpty := by
    have hmap := congrArg List.isEmpty hfields
    rwa [List.isEmpty_map, List.isEmpty_map] at hmap
  rw [block, block, hname, hkind, hrows, hempty]

end DecisionTable

/-- A table has a block for every selected declaration that is kept. -/
theorem decisionTables_compile (sources : List Source) (leaves : LeafTable)
    (selection : Selection) : (compile sources leaves selection).decisionTables =
      "\n\n".intercalate
        (((compile sources leaves selection).declarations.filter selection.selects).map fun decl ↦
          DecisionTable.block leaves decl (decl.schema leaves).descriptors) := by
  have hblocks : (compile sources leaves selection).types.filterMap (fun type ↦
      ((compile sources leaves selection).declaration? type.name).map fun decl ↦
        DecisionTable.block leaves decl type.descriptors)
      = ((compile sources leaves selection).declarations.filter selection.selects).map fun decl ↦
          DecisionTable.block leaves decl (decl.schema leaves).descriptors := by
    change List.filterMap _ (List.map _ _) = _
    rw [List.filterMap_map, ← List.filterMap_eq_map]
    refine List.filterMap_congr fun decl hdecl ↦ ?_
    have hfound := declaration?_of_mem leaves selection (List.mem_filter.mp hdecl).1
    exact congrArg (Option.map _) hfound
  exact congrArg _ hblocks

/-! ## Output -/

/-- A type with this content. -/
def TypeSchema.ofContent (content : String × DeclKind × Bool × List Descriptor) : TypeSchema :=
  ⟨content.1, content.2.1, ⟨0, 0, 0⟩, content.2.2.1, content.2.2.2⟩

theorem TypeSchema.rustText_ofContent (style : Generated.Style) (types : List TypeSchema) :
    TypeSchema.rustText style ((types.map TypeSchema.content).map ofContent)
      = TypeSchema.rustText style types := by
  rw [rustText, rustText, Generated.blocks, Generated.blocks, List.map_map, List.filter_map,
    List.mapM_map]
  rfl

theorem TypeSchema.jsonText_ofContent (indented : Bool) (types : List TypeSchema) :
    TypeSchema.jsonText indented ((types.map TypeSchema.content).map ofContent)
      = TypeSchema.jsonText indented types := by
  rw [jsonText, jsonText, document, document, List.map_map, List.map_map]
  rfl

theorem Diagnostic.hasErrors_content (ds : List Diagnostic) :
    hasErrors ds = (ds.map content).any fun content ↦ content.1.severity == .error := by
  rw [List.any_map]
  rfl

theorem Diagnostic.errorCount_content (ds : List Diagnostic) :
    errorCount ds = (ds.map content).countP fun content ↦ content.1.severity == .error := by
  rw [List.countP_map]
  rfl

namespace Compilation

variable {c c' : Compilation} (htypes : c.types.map TypeSchema.content = c'.types.map TypeSchema.content)
  (hunmatched : c.unmatched = c'.unmatched)
  (hdiagnostics : c.diagnostics.map Diagnostic.content = c'.diagnostics.map Diagnostic.content)

include hunmatched hdiagnostics

/-- What is made of the types is the same, and so is the error where there is none. -/
theorem validTypes_map_of_content {α : Type} {f : List TypeSchema → α} (hf : f c.types = f c'.types) :
    c.validTypes.map f = c'.validTypes.map f := by
  have hvalid : c.isValid = c'.isValid := by
    rw [isValid, isValid, Diagnostic.hasErrors_content, Diagnostic.hasErrors_content, hdiagnostics]
  have hcount : Diagnostic.errorCount c.diagnostics = Diagnostic.errorCount c'.diagnostics := by
    rw [Diagnostic.errorCount_content, Diagnostic.errorCount_content, hdiagnostics]
  rw [validTypes, validTypes, hunmatched, hvalid, hcount]
  cases c'.unmatched with
  | cons pattern more => rfl
  | nil =>
    cases c'.isValid with
    | false => rfl
    | true => exact congrArg Except.ok hf

include htypes

theorem rustText_of_content (style : Generated.Style) : c.rustText style = c'.rustText style := by
  have hjoin (c : Compilation) : c.rustText style
      = (c.validTypes.map (TypeSchema.rustText style)).bind id := by
    rw [rustText]
    cases c.validTypes <;> rfl
  rw [hjoin, hjoin, validTypes_map_of_content hunmatched hdiagnostics]
  rw [← TypeSchema.rustText_ofContent, htypes, TypeSchema.rustText_ofContent]

theorem jsonText_of_content (indented : Bool) : c.jsonText indented = c'.jsonText indented := by
  refine validTypes_map_of_content hunmatched hdiagnostics ?_
  rw [← TypeSchema.jsonText_ofContent, htypes, TypeSchema.jsonText_ofContent]

end Compilation

/-! ## Compilations -/

theorem parsedFrom_alike {selection : Selection} {sources sources' : List Source} (index : Nat)
    (h : List.Forall₂ (fun s s' : Source × Nat ↦ List.Forall₂ selection.Alike
        (SchemaFile.read s.2 s.1.text).declarations (SchemaFile.read s'.2 s'.1.text).declarations)
      (sources.zipIdx index) (sources'.zipIdx index)) :
    List.Forall₂ selection.Alike (parsedFrom index sources) (parsedFrom index sources') := by
  rw [parsedFrom, parsedFrom]
  exact List.rel_flatMap h fun _ _ halike ↦ halike

/-- **What is not selected plays no part.** Two lists of schema files that declare the same names,
source by source, and of which all that is selected has the same content, come to the same: types,
patterns that describe nothing, diagnostics, the table of decisions, and whatever is written, be it
a text or the reason for none. -/
theorem compile_alike {sources sources' : List Source} (leaves : LeafTable) (selection : Selection)
    (h : ∀ s ∈ sources.zipIdx, (SchemaFile.read s.2 s.1.text).isValid = true)
    (h' : ∀ s ∈ sources'.zipIdx, (SchemaFile.read s.2 s.1.text).isValid = true)
    (halike : List.Forall₂ (fun s s' : Source × Nat ↦ List.Forall₂ selection.Alike
        (SchemaFile.read s.2 s.1.text).declarations (SchemaFile.read s'.2 s'.1.text).declarations)
      sources.zipIdx sources'.zipIdx) :
    let c := compile sources leaves selection
    let c' := compile sources' leaves selection
    c.types.map TypeSchema.content = c'.types.map TypeSchema.content ∧
      c.unmatched = c'.unmatched ∧
      c.diagnostics.map Diagnostic.content = c'.diagnostics.map Diagnostic.content ∧
      c.decisionTables = c'.decisionTables ∧
      (∀ style, c.rustText style = c'.rustText style) ∧
      ∀ indented, c.jsonText indented = c'.jsonText indented := by
  intro c c'
  have hcollect : collect [] 0 sources = keepFirst [] (parsedFrom 0 sources) :=
    collect_of_valid [] 0 sources fun s hs ↦ Option.isNone_iff_eq_none.mp (h s hs)
  have hcollect' : collect [] 0 sources' = keepFirst [] (parsedFrom 0 sources') :=
    collect_of_valid [] 0 sources' fun s hs ↦ Option.isNone_iff_eq_none.mp (h' s hs)
  obtain ⟨hkept, hrepeated⟩ := keepFirst_alike .nil (parsedFrom_alike 0 halike)
  rw [← hcollect, ← hcollect'] at hkept hrepeated
  have hselected := selected_of_alike hkept
  have htypes : c.types.map TypeSchema.content = c'.types.map TypeSchema.content := by
    change List.map _ (List.map _ _) = List.map _ (List.map _ _)
    rw [List.map_map, List.map_map]
    exact map_eq_map_of_key (fun _ _ heq ↦ Declaration.schema_of_content heq leaves) hselected
  have hunmatched : c.unmatched = c'.unmatched := by
    refine unmatched_congr selection fun name ↦ ?_
    rw [namesOf_of_alike hkept]
  have hdiagnostics : c.diagnostics.map Diagnostic.content = c'.diagnostics.map Diagnostic.content := by
    change List.map _ (_ ++ _) = List.map _ (_ ++ _)
    rw [List.map_append, List.map_append, hrepeated, List.map_flatMap, List.map_flatMap,
      List.flatMap_def, List.flatMap_def]
    exact congrArg _ (congrArg _ (map_eq_map_of_key
      (fun _ _ heq ↦ Declaration.diagnostics_of_content heq leaves) hselected))
  refine ⟨htypes, hunmatched, hdiagnostics, ?_,
    Compilation.rustText_of_content htypes hunmatched hdiagnostics,
    Compilation.jsonText_of_content htypes hunmatched hdiagnostics⟩
  rw [decisionTables_compile, decisionTables_compile]
  refine congrArg _ (map_eq_map_of_key (fun decl decl' heq ↦ ?_) hselected)
  rw [Declaration.schema, Declaration.schema]
  dsimp only
  rw [Declaration.descriptors_of_content heq, DecisionTable.block_of_content heq]

/-- Two classes without a marker that become an interface and an empty class, beside a name that is
declared again. -/
theorem compile_alike_unmarked :
    let sources : List Source :=
      [⟨.inline, "@Schema class A \x7b b: C \x7d class C \x7b static _d: int d: A \x7d"⟩,
        ⟨.stdin, "class A \x7b b: int \x7d class E \x7b e$: E \x7d"⟩]
    let sources' : List Source :=
      [⟨.inline, "@Schema class A \x7b b: C; \x7d interface C \x7b fn f(a: A) \x7d"⟩,
        ⟨.stdin, "interface A \x7b \x7d class E \x7b \x7d"⟩]
    let c := compile sources {} .marked
    let c' := compile sources' {} .marked
    (∀ s ∈ sources.zipIdx, (SchemaFile.read s.2 s.1.text).isValid = true) ∧
      (∀ s ∈ sources'.zipIdx, (SchemaFile.read s.2 s.1.text).isValid = true) ∧
      List.Forall₂ (fun s s' : Source × Nat ↦ List.Forall₂ (Selection.marked).Alike
          (SchemaFile.read s.2 s.1.text).declarations (SchemaFile.read s'.2 s'.1.text).declarations)
        sources.zipIdx sources'.zipIdx ∧
      c.types.map TypeSchema.content = c'.types.map TypeSchema.content ∧
      c.unmatched = c'.unmatched ∧
      c.diagnostics.map Diagnostic.content = c'.diagnostics.map Diagnostic.content ∧
      c.decisionTables = c'.decisionTables ∧
      (∀ style, c.rustText style = c'.rustText style) ∧
      ∀ indented, c.jsonText indented = c'.jsonText indented := by
  intro sources sources' c c'
  have hvalid : ∀ s ∈ sources.zipIdx, (SchemaFile.read s.2 s.1.text).isValid = true := by
    decide +kernel
  have hvalid' : ∀ s ∈ sources'.zipIdx, (SchemaFile.read s.2 s.1.text).isValid = true := by
    decide +kernel
  have halike : List.Forall₂ (fun s s' : Source × Nat ↦ List.Forall₂ (Selection.marked).Alike
      (SchemaFile.read s.2 s.1.text).declarations (SchemaFile.read s'.2 s'.1.text).declarations)
      sources.zipIdx sources'.zipIdx := by
    decide +kernel
  exact ⟨hvalid, hvalid', halike, compile_alike {} .marked hvalid hvalid' halike⟩

end FieldPaths
