import FieldPaths.Compilation
import FieldPaths.Proofs.Descriptor
import FieldPaths.Proofs.SchemaFile

/-!
# Which compilations are valid

A compilation goes on whatever it finds, so that it is valid has to be read off three lists of
diagnostics: those of the texts, those of the names that are declared again, and those of the
selected declarations. All but one kind of diagnostic is an error, and that kind comes only where
the others do not; so a list has no error when it is empty, and for the first two lists there is
nothing in between.

The collection of declarations loses some, and what is selected is selected from the rest. This does
not show in the conditions: as long as nothing is reported nothing is lost, and the declarations
kept are all there are.
-/

namespace FieldPaths

/-! ## Severities -/

theorem Located.diagnostic_isError (located : Located Span) :
    located.diagnostic.isError = true := by
  obtain ⟨error | _, location⟩ := located <;> rfl

theorem Diagnostic.hasErrors_append (ds es : List Diagnostic) :
    hasErrors (ds ++ es) = (hasErrors ds || hasErrors es) := List.any_append

/-- Where every diagnostic is an error, there is an error unless there is no diagnostic. -/
theorem Diagnostic.hasErrors_eq_false_iff {ds : List Diagnostic} (h : ∀ d ∈ ds, d.isError = true) :
    hasErrors ds = false ↔ ds = [] := by
  cases ds with
  | nil => exact iff_of_true rfl rfl
  | cons d ds => simp [hasErrors, h d List.mem_cons_self]

theorem Diagnostic.hasWarnings_eq_false {ds : List Diagnostic} (h : ∀ d ∈ ds, d.isError = true) :
    hasWarnings ds = false := by
  rw [hasWarnings, List.any_eq_false]
  intro d hd hwarning
  have herror := h d hd
  rw [isError, beq_iff_eq] at herror
  rw [isWarning, herror] at hwarning
  cases hwarning

/-! ## Collecting -/

variable {kept decls : List (Declaration Span)}

/-- The names of some declarations. -/
def namesOf (decls : List (Declaration Span)) : List String := decls.map Declaration.name

theorem namesOf_append (kept decls : List (Declaration Span)) :
    namesOf (kept ++ decls) = namesOf kept ++ namesOf decls := List.map_append

theorem find?_eq_none_iff {decl : Declaration Span} :
    kept.find? (·.name == decl.name) = none ↔ decl.name ∉ namesOf kept := by
  simp [namesOf]

theorem nodup_concat {decl : Declaration Span} (hkept : (namesOf kept).Nodup)
    (hnew : decl.name ∉ namesOf kept) : (namesOf (kept ++ [decl])).Nodup := by
  rw [namesOf_append, List.nodup_append]
  refine ⟨hkept, List.pairwise_singleton .., ?_⟩
  rintro name hname _ hdecl rfl
  obtain rfl := List.mem_singleton.mp hdecl
  exact hnew hname

theorem keepFirst_isError (kept decls : List (Declaration Span)) :
    ∀ d ∈ (keepFirst kept decls).2, d.isError = true := by
  induction decls generalizing kept with
  | nil => nofun
  | cons decl more ih =>
    rw [keepFirst]
    split
    · exact ih _
    · intro d hd
      rcases List.mem_cons.mp hd with rfl | hd
      · rfl
      · exact ih _ d hd

/-- As long as no name comes twice, everything is kept and nothing reported. -/
theorem keepFirst_of_nodup (h : (namesOf (kept ++ decls)).Nodup) :
    keepFirst kept decls = (kept ++ decls, []) := by
  induction decls generalizing kept with
  | nil => rw [keepFirst, List.append_nil]
  | cons decl more ih =>
    have hnew : kept.find? (·.name == decl.name) = none := by
      rw [find?_eq_none_iff]
      intro hmem
      rw [namesOf_append, List.nodup_append] at h
      exact h.2.2 _ hmem _ List.mem_cons_self rfl
    rw [List.append_cons] at h
    have hmore := ih h
    rw [← List.append_cons] at hmore
    rw [keepFirst, hnew]
    exact hmore

/-- Nothing is reported exactly if no name comes twice. -/
theorem keepFirst_eq_nil_iff (hkept : (namesOf kept).Nodup) :
    (keepFirst kept decls).2 = [] ↔ (namesOf (kept ++ decls)).Nodup := by
  refine ⟨fun h ↦ ?_, fun h ↦ by rw [keepFirst_of_nodup h]⟩
  induction decls generalizing kept with
  | nil => rwa [List.append_nil]
  | cons decl more ih =>
    rw [keepFirst] at h
    split at h
    · rename_i hnew
      rw [List.append_cons]
      exact ih (nodup_concat hkept (find?_eq_none_iff.mp hnew)) h
    · cases h

/-- All that the sources declare, the first of which has the position `index`. -/
def parsedFrom (index : Nat) (sources : List Source) : List (Declaration Span) :=
  (sources.zipIdx index).flatMap fun s ↦ (SchemaFile.read s.2 s.1.text).declarations

theorem parsedFrom_cons (index : Nat) (source : Source) (more : List Source) :
    parsedFrom index (source :: more)
      = (SchemaFile.read index source.text).declarations ++ parsedFrom (index + 1) more := by
  rw [parsedFrom, List.zipIdx_cons, List.flatMap_cons, parsedFrom]

theorem collect_isError (kept : List (Declaration Span)) (index : Nat) (sources : List Source) :
    ∀ d ∈ (collect kept index sources).2, d.isError = true := by
  induction sources generalizing kept index with
  | nil => nofun
  | cons source more ih =>
    intro d hd
    rw [collect, List.mem_append, List.mem_append] at hd
    rcases hd with (hd | hd) | hd
    · rw [SchemaFile.read_diagnostic, Option.mem_toList, Option.map_eq_some_iff] at hd
      obtain ⟨φ, -, rfl⟩ := hd
      exact φ.diagnostic_isError index source.text
    · exact keepFirst_isError _ _ d hd
    · exact ih _ _ d hd

theorem collect_of_nodup {index : Nat} {sources : List Source}
    (h : (namesOf (kept ++ parsedFrom index sources)).Nodup) :
    (collect kept index sources).1 = kept ++ parsedFrom index sources := by
  induction sources generalizing kept index with
  | nil => exact (List.append_nil kept).symm
  | cons source more ih =>
    rw [parsedFrom_cons, ← List.append_assoc] at h ⊢
    rw [collect, keepFirst_of_nodup ?_]
    · exact ih h
    · rw [namesOf_append] at h
      exact (List.nodup_append.mp h).1

/-- Nothing is reported exactly if every text is a schema file and no name comes twice. -/
theorem collect_eq_nil_iff (hkept : (namesOf kept).Nodup) (index : Nat) (sources : List Source) :
    (collect kept index sources).2 = [] ↔
      (∀ s ∈ sources.zipIdx index, (SchemaFile.read s.2 s.1.text).diagnostic = none) ∧
        (namesOf (kept ++ parsedFrom index sources)).Nodup := by
  induction sources generalizing kept index with
  | nil => simp [collect, parsedFrom, hkept]
  | cons source more ih =>
    rw [collect, List.append_eq_nil_iff, List.append_eq_nil_iff, Option.toList_eq_nil_iff,
      keepFirst_eq_nil_iff hkept, List.zipIdx_cons, List.forall_mem_cons, parsedFrom_cons,
      ← List.append_assoc]
    constructor
    · rintro ⟨⟨htext, hnames⟩, hmore⟩
      rw [keepFirst_of_nodup hnames] at hmore
      obtain ⟨htexts, hall⟩ := (ih hnames (index + 1)).mp hmore
      exact ⟨⟨htext, htexts⟩, hall⟩
    · -- the names of the first source are among all of them
      rintro ⟨⟨htext, htexts⟩, hall⟩
      have hnames : (namesOf (kept ++ (SchemaFile.read index source.text).declarations)).Nodup := by
        rw [namesOf_append] at hall
        exact (List.nodup_append.mp hall).1
      refine ⟨⟨htext, hnames⟩, ?_⟩
      rw [keepFirst_of_nodup hnames]
      exact (ih hnames (index + 1)).mpr ⟨htexts, hall⟩

/-! ## Selected declarations -/

namespace Declaration

variable {decl : Declaration Span} {leaves : LeafTable}

theorem synthesis_errors_isError (decl : Declaration Span) (leaves : LeafTable) :
    ∀ d ∈ (decl.synthesis leaves).errors.map (·.diagnostic), d.isError = true := by
  intro d hd
  obtain ⟨located, -, rfl⟩ := List.mem_map.mp hd
  exact located.diagnostic_isError

theorem diagnostics_hasErrors_iff : Diagnostic.hasErrors (decl.diagnostics leaves) = false ↔
    (decl.synthesis leaves).errors = [] := by
  rw [diagnostics, Synthesis.isValid]
  split
  · rename_i h
    rw [Bool.and_eq_true, List.isEmpty_iff] at h
    exact iff_of_true rfl h.1
  · rw [Diagnostic.hasErrors_eq_false_iff (synthesis_errors_isError decl leaves),
      List.map_eq_nil_iff]

theorem diagnostics_hasWarnings_iff : Diagnostic.hasWarnings (decl.diagnostics leaves) = true ↔
    decl.kind = .cls ∧ decl.eligibleFields = [] := by
  rw [← synthesis_eq_nil_iff, diagnostics, Synthesis.isValid]
  split
  · rename_i h
    rw [Bool.and_eq_true, List.isEmpty_iff, List.isEmpty_iff] at h
    exact iff_of_true rfl h
  · rename_i h
    rw [Bool.and_eq_true, List.isEmpty_iff, List.isEmpty_iff] at h
    refine iff_of_false ?_ h
    rw [Diagnostic.hasWarnings_eq_false (synthesis_errors_isError decl leaves)]
    exact Bool.false_ne_true

end Declaration

/-! ## Validity -/

variable (sources : List Source) (leaves : LeafTable) (selection : Selection)

theorem compile_isValid : (compile sources leaves selection).isValid = true ↔
    (collect [] 0 sources).2 = [] ∧ ∀ decl ∈ (collect [] 0 sources).1,
      selection.selects decl = true → (decl.synthesis leaves).errors = [] := by
  rw [Compilation.isValid, compile, Bool.not_eq_true', Diagnostic.hasErrors_append,
    Bool.or_eq_false_iff, Diagnostic.hasErrors_eq_false_iff (collect_isError [] 0 sources)]
  refine and_congr_right fun _ ↦ ?_
  rw [Diagnostic.hasErrors, List.any_flatMap, List.any_eq_false]
  simp only [List.mem_filter, and_imp, Bool.not_eq_true]
  exact forall_congr' fun decl ↦ forall_congr' fun _ ↦ forall_congr' fun _ ↦
    Declaration.diagnostics_hasErrors_iff

theorem compile_hasWarnings :
    Diagnostic.hasWarnings (compile sources leaves selection).diagnostics = true ↔
      ∃ decl ∈ (compile sources leaves selection).declarations, selection.selects decl = true ∧
        decl.kind = .cls ∧ decl.eligibleFields = [] := by
  have hcollect := Diagnostic.hasWarnings_eq_false (collect_isError [] 0 sources)
  rw [compile, Diagnostic.hasWarnings, List.any_append, ← Diagnostic.hasWarnings, hcollect,
    Bool.false_or, List.any_flatMap, List.any_eq_true]
  simp only [List.mem_filter, and_assoc]
  exact exists_congr fun decl ↦ and_congr_right fun _ ↦ and_congr_right fun _ ↦
    Declaration.diagnostics_hasWarnings_iff

/-- **When a compilation is valid.** Every text is a schema file, no name is declared twice, and
every selected declaration is a class whose descriptors take no name of a static member. A
compilation has a warning exactly if it keeps a selected class without an eligible field. -/
theorem compile_isValid_iff :
    ((compile sources leaves selection).isValid = true ↔
      (∀ s ∈ sources.zipIdx, (SchemaFile.read s.2 s.1.text).diagnostic = none) ∧
      (namesOf (parsedFrom 0 sources)).Nodup ∧
      (∀ decl ∈ parsedFrom 0 sources, selection.selects decl = true → decl.kind = .cls) ∧
      ∀ decl ∈ parsedFrom 0 sources, selection.selects decl = true → decl.kind = .cls →
        ∀ field ∈ decl.fields, field.modifiers.isFinal = false → field.modifiers.isStatic = false →
          field.attributes = [] →
            (∀ other ∈ decl.fields, other.modifiers.isStatic = true →
              other.name ≠ "_" ++ field.name) ∧
            (leaves.isLeaf field.type = false →
              ∀ method ∈ decl.methods, method.isStatic = true → method.name ≠ "_" ++ field.name)) ∧
    (Diagnostic.hasWarnings (compile sources leaves selection).diagnostics = true ↔
      ∃ decl ∈ (compile sources leaves selection).declarations, selection.selects decl = true ∧
        decl.kind = .cls ∧ ¬ ∃ field ∈ decl.fields, field.modifiers.isFinal = false ∧
          field.modifiers.isStatic = false ∧ field.attributes = []) := by
  have hnil : (namesOf []).Nodup := List.nodup_nil
  constructor
  · rw [compile_isValid, collect_eq_nil_iff hnil, List.nil_append, and_assoc]
    refine and_congr_right fun _ ↦ and_congr_right fun hnames ↦ ?_
    -- with all names different, nothing was dropped before the selection
    have hall : (collect [] 0 sources).1 = parsedFrom 0 sources := collect_of_nodup hnames
    rw [hall]
    simp only [Declaration.synthesis_errors_eq_nil_iff, Declaration.forall_conflicts_eq_nil_iff]
    constructor
    · intro h
      exact ⟨fun decl hdecl hselects ↦ (h decl hdecl hselects).1,
        fun decl hdecl hselects _ ↦ (h decl hdecl hselects).2⟩
    · rintro ⟨hcls, hfree⟩ decl hdecl hselects
      have hkind := hcls decl hdecl hselects
      exact ⟨hkind, hfree decl hdecl hselects hkind⟩
  · rw [compile_hasWarnings]
    refine exists_congr fun decl ↦ and_congr_right fun _ ↦ and_congr_right fun _ ↦
      and_congr_right fun _ ↦ ?_
    rw [List.eq_nil_iff_forall_not_mem]
    simp only [Declaration.mem_eligibleFields, not_exists]

end FieldPaths
