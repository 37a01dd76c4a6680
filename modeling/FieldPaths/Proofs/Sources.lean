import FieldPaths.Proofs.Compilation.Places
import FieldPaths.Proofs.Token.Scanning

/-!
# How a schema is spread over its sources

What a text declares does not depend on the source it stands in (`SchemaFile.read_declarations`),
so all that matters of the sources is what they declare together, and in which order.

The order decides which of two declarations of a name is kept. That changes the types, but only
where there is an error in any order. What is asked before anything is written does not depend
on it, and what is written then has the same types in another order.

Where one text ends and the next one starts does not matter at all. A line feed between them ends
every token and every comment, and a text that is a schema file leaves nothing open there.
-/

namespace FieldPaths

/-! ## What a text declares -/

/-- The tokens of a text without their places. -/
def Token.words (text : String) : List Token := (scan text).map unplaced

/-- What a text declares before its first fault, without places. -/
def declaredIn (text : String) : List (Declaration Span) :=
  (Grammar.declarations 0 (Token.words text)).1

/-- The text is a schema file. -/
def IsSchema (text : String) : Prop := (Grammar.declarations 0 (Token.words text)).2 = none

namespace SchemaFile

variable (index : Nat) (text : String)

theorem read_declarations :
    (read index text).declarations.map Declaration.unplaced = declaredIn text := by
  rw [declaredIn, Token.words, Grammar.declarations_unplaced index]
  rfl

theorem read_diagnostic_eq_none_iff : (read index text).diagnostic = none ↔ IsSchema text := by
  rw [IsSchema, Token.words, Grammar.declarations_unplaced index, read_diagnostic,
    Option.map_eq_none_iff, Option.map_eq_none_iff]

end SchemaFile

/-- What some sources declare together, without places. -/
def declaredBy (sources : List Source) : List (Declaration Span) :=
  sources.flatMap fun s ↦ declaredIn s.text

theorem parsedFrom_unplaced (index : Nat) (sources : List Source) :
    (parsedFrom index sources).map Declaration.unplaced = declaredBy sources := by
  induction sources generalizing index with
  | nil => rfl
  | cons source more ih =>
    rw [parsedFrom_cons, List.map_append, ih, SchemaFile.read_declarations]
    rfl

theorem namesOf_parsedFrom (index : Nat) (sources : List Source) :
    namesOf (parsedFrom index sources) = namesOf (declaredBy sources) := by
  rw [← parsedFrom_unplaced index, namesOf_unplaced]

theorem forall_diagnostic_eq_none_iff (index : Nat) (sources : List Source) :
    (∀ s ∈ sources.zipIdx index, (SchemaFile.read s.2 s.1.text).diagnostic = none) ↔
      ∀ s ∈ sources, IsSchema s.text := by
  induction sources generalizing index with
  | nil => exact iff_of_true nofun nofun
  | cons source more ih =>
    rw [List.zipIdx_cons, List.forall_mem_cons, List.forall_mem_cons, ih,
      SchemaFile.read_diagnostic_eq_none_iff]

/-- With all names different, what is kept is what is declared. -/
theorem collect_of_nodup_declaredBy {sources : List Source}
    (h : (namesOf (declaredBy sources)).Nodup) : (collect [] 0 sources).1 = parsedFrom 0 sources := by
  rw [← namesOf_parsedFrom 0] at h
  exact collect_of_nodup h

/-! ## Sources in another order -/

variable (leaves : LeafTable) (selection : Selection)

/-- Validity is a matter of what the sources declare together. -/
theorem compile_isValid_iff_declaredBy (sources : List Source) :
    (compile sources leaves selection).isValid = true ↔
      (∀ s ∈ sources, IsSchema s.text) ∧ (namesOf (declaredBy sources)).Nodup ∧
        ∀ decl ∈ declaredBy sources, selection.selects decl = true →
          (decl.synthesis leaves).errors = [] := by
  have hnil : (namesOf []).Nodup := List.nodup_nil
  rw [compile_isValid, collect_eq_nil_iff hnil, List.nil_append, forall_diagnostic_eq_none_iff,
    namesOf_parsedFrom, and_assoc]
  refine and_congr_right fun _ ↦ and_congr_right fun hnames ↦ ?_
  rw [collect_of_nodup_declaredBy hnames, ← parsedFrom_unplaced 0, List.forall_mem_map]
  simp only [Declaration.selects_unplaced, Declaration.synthesis_errors_unplaced]

theorem compile_types_of_isValid {sources : List Source}
    (h : (compile sources leaves selection).isValid = true) :
    (compile sources leaves selection).types.map TypeSchema.content
      = (((declaredBy sources).filter selection.selects).map (·.schema leaves)).map
          TypeSchema.content := by
  have hnames := ((compile_isValid_iff_declaredBy leaves selection sources).mp h).2.1
  rw [← parsedFrom_unplaced 0, schemas_content_unplaced, ← collect_of_nodup_declaredBy hnames]
  rfl

/-- A pattern describes something exactly if it describes something that is declared. -/
theorem compile_unmatched (sources : List Source) :
    (compile sources leaves selection).unmatched = selection.unmatched (declaredBy sources) := by
  refine unmatched_congr selection fun name ↦ ?_
  rw [mem_namesOf_collect, namesOf_parsedFrom]
  simp [namesOf]

theorem validTypes_isOk (c : Compilation) :
    c.validTypes.isOk = (c.unmatched.isEmpty && c.isValid) := by
  rw [Compilation.validTypes]
  cases c.unmatched with
  | nil => cases c.isValid <;> rfl
  | cons pattern more => rfl

/-- **The order of the sources does not matter.** Sources in another order are as valid, the same
patterns of the selection describe nothing, and types may be written of both or of neither. A valid
compilation has the same types, in another order. -/
theorem compile_perm {sources sources' : List Source} (h : sources.Perm sources') :
    (compile sources leaves selection).isValid = (compile sources' leaves selection).isValid ∧
      (compile sources leaves selection).unmatched
        = (compile sources' leaves selection).unmatched ∧
      (compile sources leaves selection).validTypes.isOk
        = (compile sources' leaves selection).validTypes.isOk ∧
      ((compile sources leaves selection).isValid = true →
        ((compile sources leaves selection).types.map TypeSchema.content).Perm
          ((compile sources' leaves selection).types.map TypeSchema.content)) := by
  have hdeclared : (declaredBy sources).Perm (declaredBy sources') := h.flatMap_right _
  have hnames : (namesOf (declaredBy sources)).Perm (namesOf (declaredBy sources')) :=
    hdeclared.map _
  have hvalid : (compile sources leaves selection).isValid
      = (compile sources' leaves selection).isValid := by
    rw [Bool.eq_iff_iff, compile_isValid_iff_declaredBy, compile_isValid_iff_declaredBy,
      hnames.nodup_iff]
    simp only [h.mem_iff, hdeclared.mem_iff]
  have hunmatched : (compile sources leaves selection).unmatched
      = (compile sources' leaves selection).unmatched := by
    rw [compile_unmatched, compile_unmatched]
    exact unmatched_congr selection fun name ↦ hnames.mem_iff
  refine ⟨hvalid, hunmatched, ?_, fun htrue ↦ ?_⟩
  · rw [validTypes_isOk, validTypes_isOk, hunmatched, hvalid]
  · rw [compile_types_of_isValid leaves selection htrue,
      compile_types_of_isValid leaves selection (hvalid ▸ htrue)]
    exact ((hdeclared.filter _).map _).map _

/-- Two schema files the other way round. -/
theorem compile_perm_swap :
    let sources : List Source :=
      [⟨.inline, "@Schema class A \x7b b: B \x7d"⟩,
        ⟨.stdin, "@Schema class C \x7b d: int e: A \x7d"⟩]
    sources.Perm sources.reverse ∧ (compile sources {} .marked).isValid = true ∧
      (compile sources {} .marked).isValid = (compile sources.reverse {} .marked).isValid ∧
      (compile sources {} .marked).unmatched = (compile sources.reverse {} .marked).unmatched ∧
      (compile sources {} .marked).validTypes.isOk
        = (compile sources.reverse {} .marked).validTypes.isOk ∧
      ((compile sources {} .marked).types.map TypeSchema.content).Perm
        ((compile sources.reverse {} .marked).types.map TypeSchema.content) := by
  intro sources
  have hperm : sources.Perm sources.reverse := List.reverse_perm sources |>.symm
  have hvalid : (compile sources {} .marked).isValid = true := by decide +kernel
  obtain ⟨hsame, hunmatched, hok, htypes⟩ := compile_perm {} .marked hperm
  exact ⟨hperm, hvalid, hsame, hunmatched, hok, htypes hvalid⟩

/-! ## Sources put together -/

/-- Where a text starts does not show in its tokens without their places. -/
theorem Token.scanFrom_unplaced (offset offset' : Nat) (cs : List Char) :
    (scanFrom offset cs).map unplaced = (scanFrom offset' cs).map unplaced := by
  have h := scans_scanFrom offset cs
  generalize scanFrom offset cs = tokens at h
  induction h generalizing offset' with
  | nil => rw [scanFrom]
  | space hc _ ih =>
    rw [scanFrom_space hc]
    exact ih _
  | comment hcs hrest _ ih =>
    rw [scanFrom_comment hcs hrest]
    exact ih _
  | token hcs _ ih =>
    rw [scanFrom_lexeme hcs, List.map_cons, List.map_cons]
    exact congrArg₂ List.cons rfl (ih _)

theorem Token.words_append_newline (text more : String) :
    words (text ++ "\n" ++ more) = words text ++ words more := by
  have hchars : (text ++ "\n" ++ more).toList = text.toList ++ '\n' :: more.toList := by
    rw [String.toList_append, String.toList_append, List.append_assoc]
    rfl
  rw [words, words, words, scan_eq_scanFrom, scan_eq_scanFrom, scan_eq_scanFrom, hchars,
    scanFrom_append_newline, List.map_append, scanFrom_unplaced (0 + _) 0]

/-- After a schema file, declarations go on with what comes next. -/
theorem declarations_words_append {text : String} (h : IsSchema text) (more : List Token) :
    Grammar.declarations 0 (Token.words text ++ more)
      = (declaredIn text ++ (Grammar.declarations 0 more).1, (Grammar.declarations 0 more).2) := by
  refine Grammar.declarations_append ((Grammar.isFile_iff ..).mpr ?_) more
  rw [← h]
  rfl

/-- Schema files on lines of their own are a schema file that declares what all of them do. -/
theorem declarations_intercalate {texts : List String} (h : ∀ text ∈ texts, IsSchema text) :
    Grammar.declarations 0 (Token.words ("\n".intercalate texts))
      = (texts.flatMap declaredIn, none) := by
  induction texts with
  | nil =>
    have hwords : Token.words "" = [] := by rw [Token.words, Token.scan_empty, List.map_nil]
    rw [String.intercalate_nil, hwords]
    exact Grammar.declarations_nil 0
  | cons text more ih =>
    rw [List.forall_mem_cons] at h
    cases more with
    | nil =>
      rw [String.intercalate_singleton, List.flatMap_singleton, ← h.1]
      rfl
    | cons second more =>
      rw [String.intercalate_cons_cons, Token.words_append_newline,
        declarations_words_append h.1, ih h.2]
      rfl

/-- **Where sources are divided does not matter.** Schema files compiled together come to the same
as one source that has them on lines of their own: the same types, declarations and patterns that
describe nothing, and the same diagnostics, all in the same order. -/
theorem compile_intercalate {sources : List Source} (origin : Origin)
    (h : ∀ s ∈ sources.zipIdx, (SchemaFile.read s.2 s.1.text).isValid = true) :
    let c := compile sources leaves selection
    let joined := compile [⟨origin, "\n".intercalate (sources.map (·.text))⟩] leaves selection
    c.types.map TypeSchema.content = joined.types.map TypeSchema.content ∧
      c.declarations.map Declaration.unplaced = joined.declarations.map Declaration.unplaced ∧
      c.unmatched = joined.unmatched ∧
      c.diagnostics.map Diagnostic.content = joined.diagnostics.map Diagnostic.content := by
  have hdiagnostic : ∀ s ∈ sources.zipIdx, (SchemaFile.read s.2 s.1.text).diagnostic = none :=
    fun s hs ↦ Option.isNone_iff_eq_none.mp (h s hs)
  have hsources := (forall_diagnostic_eq_none_iff 0 sources).mp hdiagnostic
  have hall := declarations_intercalate (List.forall_mem_map.mpr hsources)
  refine compile_congr leaves selection hdiagnostic ?_ ?_
  · rw [forall_diagnostic_eq_none_iff, List.forall_mem_singleton, IsSchema, hall]
  · rw [parsedFrom_unplaced, parsedFrom_unplaced, declaredBy, declaredBy, List.flatMap_singleton,
      declaredIn, hall, List.flatMap_map]

/-- A text that ends in a comment, and one that declares a name again. -/
theorem compile_intercalate_comment :
    let first : Source := ⟨.inline, "@Schema class A \x7b b: B \x7d // not closed"⟩
    let second : Source := ⟨.stdin, "@Schema class A \x7b\x7d @Schema class C \x7b d: int \x7d"⟩
    let c := compile [first, second] {} .marked
    let joined := compile [⟨.inline, "\n".intercalate ([first, second].map (·.text))⟩] {} .marked
    (∀ s ∈ [first, second].zipIdx, (SchemaFile.read s.2 s.1.text).isValid = true) ∧
      c.types.map TypeSchema.content = joined.types.map TypeSchema.content ∧
      c.declarations.map Declaration.unplaced = joined.declarations.map Declaration.unplaced ∧
      c.unmatched = joined.unmatched ∧
      c.diagnostics.map Diagnostic.content = joined.diagnostics.map Diagnostic.content := by
  intro first second c joined
  have hvalid : ∀ s ∈ [first, second].zipIdx, (SchemaFile.read s.2 s.1.text).isValid = true := by
    decide +kernel
  exact ⟨hvalid, compile_intercalate {} .marked .inline hvalid⟩

end FieldPaths
