import FieldPaths.Excerpt.Report
import FieldPaths.Proofs.Compilation.Kept

/-!
# Where diagnostics point

Every place that a diagnostic speaks of is that of a token of one of the sources, or the end of one
(`SchemaFile.placeOf`). All stages only hand on places that they were given: a fault those of the
tokens it was met with, a declaration that of its name, and an error of the descriptors that of the
declaration or of one of its fields. So it is enough to know tokens and ends.

A report shows an empty range as the byte after it. That would be half a character before one of
more bytes, or a byte too far at the end of the text. But a token has bytes of its own, so an empty
range is the end of its text, and there nothing is added.
-/

namespace FieldPaths

/-! ## Ranges of bytes -/

/-- Two bytes of a text, or its end, that are in order and between characters. -/
structure IsRange (text : String) (start stop : Nat) : Prop where
  le : start ≤ stop
  stop_le : stop ≤ text.utf8ByteSize
  start_isValid : String.Pos.Raw.IsValid text ⟨start⟩
  stop_isValid : String.Pos.Raw.IsValid text ⟨stop⟩

theorem isValid_byteCount {text : String} {front back : List Char}
    (h : text.toList = front ++ back) :
    String.Pos.Raw.IsValid text ⟨Token.byteCount front⟩ := by
  rw [String.Pos.Raw.isValid_iff_exists_append]
  refine ⟨String.ofList front, String.ofList back, ?_, ?_⟩
  · rw [← String.ofList_append, ← h, String.ofList_toList]
  · rw [← Token.utf8ByteSize_ofList]
    rfl

theorem Token.StandsAt.isRange {text : String} {start : Nat} {cs after : List Char}
    (h : StandsAt text start cs after) : IsRange text start (start + byteCount cs) := by
  obtain ⟨before, htext, rfl⟩ := h
  refine ⟨Nat.le_add_right .., ?_, isValid_byteCount htext, ?_⟩
  · rw [← byteCount_toList, htext, ← List.append_assoc, byteCount_append, byteCount_append]
    exact Nat.le_add_right ..
  · rw [← byteCount_append]
    exact isValid_byteCount (htext.trans (List.append_assoc ..).symm)

theorem isRange_end (text : String) : IsRange text text.utf8ByteSize text.utf8ByteSize :=
  ⟨Nat.le_refl _, Nat.le_refl _, String.Pos.Raw.isValid_rawEndPos,
    String.Pos.Raw.isValid_rawEndPos⟩

/-! ## Tokens and ends -/

namespace SchemaFile

variable {index : Nat} {text : String}

theorem placeOf_isRange (index : Nat) (text : String) (i : Nat) :
    IsRange text (placeOf index text i).start (placeOf index text i).stop := by
  rw [placeOf]
  split
  · rename_i t ht
    obtain ⟨after, hstands, -⟩ := Token.exists_standsAt_of_mem_scan (List.mem_of_getElem? ht)
    rw [Token.span, Token.stop, ← Token.byteCount_toList]
    exact hstands.isRange
  · exact isRange_end text

/-- A place is shown as it is. -/
theorem shownRange_placeOf (index : Nat) (text : String) (i : Nat) :
    Excerpt.shownRange (.ofString text) (placeOf index text i)
      = ((placeOf index text i).start, (placeOf index text i).stop) := by
  have hsize : (Excerpt.SourceText.ofString text).size = text.utf8ByteSize :=
    Token.byteCount_toList text
  rw [Excerpt.shownRange, hsize]
  split
  · rename_i hempty
    rw [placeOf] at hempty ⊢
    split at hempty
    · rename_i t ht
      exact absurd hempty (Nat.ne_of_lt (Token.scan_bounds (List.mem_of_getElem? ht)).1)
    · exact congrArg _ (Nat.min_eq_right (Nat.le_succ _))
  · rfl

theorem exists_placeOf_of_mem_scan {t : Token} (ht : t ∈ Token.scan text) :
    ∃ i, t.span index = placeOf index text i := by
  obtain ⟨i, hi⟩ := List.mem_iff_getElem?.mp ht
  exact ⟨i, by rw [placeOf, hi]⟩

theorem exists_placeOf_end (index : Nat) (text : String) :
    ∃ i, ⟨index, text.utf8ByteSize, text.utf8ByteSize⟩ = placeOf index text i :=
  ⟨(Token.scan text).length, by rw [placeOf, List.getElem?_length]⟩

end SchemaFile

/-- The place of a token of one of the sources, or the end of one. -/
def IsPlace (sources : List Source) (span : Span) : Prop :=
  ∃ source, sources[span.source]? = some source ∧
    ∃ i, span = SchemaFile.placeOf span.source source.text i

/-- All places that the diagnostic speaks of are like that. -/
structure Diagnostic.Within (P : Span → Prop) (d : Diagnostic) : Prop where
  span : P d.span
  related : ∀ r ∈ d.related, P r.span

/-! ## Faults and names -/

section Source

variable {sources : List Source} {index : Nat} {source : Source}
  (hsource : sources[index]? = some source)

include hsource

theorem isPlace_span {t : Token} (ht : t ∈ Token.scan source.text) :
    IsPlace sources (t.span index) :=
  ⟨source, hsource, SchemaFile.exists_placeOf_of_mem_scan ht⟩

theorem isPlace_end :
    IsPlace sources ⟨index, source.text.utf8ByteSize, source.text.utf8ByteSize⟩ :=
  ⟨source, hsource, SchemaFile.exists_placeOf_end index source.text⟩

/-- A fault speaks of its tokens, or of the end of the text. -/
theorem Fault.diagnostic_within {φ : Fault}
    (h : (Grammar.declarations index (Token.scan source.text)).2 = some φ) :
    (φ.diagnostic index source.text).Within (IsPlace sources) := by
  have htokens : ∀ t ∈ Grammar.tokensOf φ, IsPlace sources (t.span index) :=
    fun t ht ↦ isPlace_span hsource (Grammar.tokensOf_subset h ht)
  rcases φ with ⟨wanted, _ | ⟨t, left⟩⟩ | ⟨t, left⟩ | ⟨name, brace⟩
  · exact ⟨isPlace_end hsource, List.forall_mem_nil _⟩
  · have ht := htokens t List.mem_cons_self
    rw [diagnostic]
    split
    · exact ⟨ht, List.forall_mem_nil _⟩
    · exact ⟨ht, List.forall_mem_nil _⟩
  · exact ⟨htokens t List.mem_cons_self, List.forall_mem_nil _⟩
  · rw [Grammar.tokensOf, List.forall_mem_cons, List.forall_mem_singleton] at htokens
    exact ⟨htokens.2, List.forall_mem_singleton.mpr htokens.1⟩

theorem Grammar.IsNameIn.isPlace {name : String} {location : Span}
    (h : IsNameIn index (Token.scan source.text) name location) : IsPlace sources location := by
  obtain ⟨t, ht, -, -, rfl⟩ := h
  exact isPlace_span hsource ht

end Source

/-! ## Handing on places -/

section HandingOn

variable {P : Span → Prop} {kept decls : List (Declaration Span)} {decl : Declaration Span}

theorem keepFirst_within (h : ∀ decl ∈ kept ++ decls, P decl.location) :
    ∀ d ∈ (keepFirst kept decls).2, d.Within P := by
  induction decls generalizing kept with
  | nil => nofun
  | cons decl more ih =>
    have hdecl : P decl.location := h decl (List.mem_append_right _ List.mem_cons_self)
    rw [keepFirst]
    split
    · rw [List.append_cons] at h
      exact ih h
    · rename_i first hfirst
      have hplace : P first.location :=
        h first (List.mem_append_left _ (List.mem_of_find?_eq_some hfirst))
      refine List.forall_mem_cons.mpr ⟨⟨hdecl, List.forall_mem_singleton.mpr hplace⟩, ih ?_⟩
      exact fun d hd ↦ h d (((List.sublist_cons_self decl more).append_left kept).subset hd)

theorem collect_within {index : Nat} {sources : List Source}
    (hkept : ∀ decl ∈ kept, P decl.location)
    (hdecls : ∀ decl ∈ parsedFrom index sources, P decl.location)
    (hfaults : ∀ s ∈ sources.zipIdx index, ∀ d ∈ (SchemaFile.read s.2 s.1.text).diagnostic,
      d.Within P) : ∀ d ∈ (collect kept index sources).2, d.Within P := by
  induction sources generalizing kept index with
  | nil => nofun
  | cons source more ih =>
    rw [parsedFrom_cons, List.forall_mem_append] at hdecls
    rw [List.zipIdx_cons, List.forall_mem_cons] at hfaults
    have hread : ∀ decl ∈ kept ++ (SchemaFile.read index source.text).declarations,
        P decl.location := List.forall_mem_append.mpr ⟨hkept, hdecls.1⟩
    rw [collect]
    refine List.forall_mem_append.mpr ⟨List.forall_mem_append.mpr ⟨fun d hd ↦ ?_, ?_⟩, ?_⟩
    · exact hfaults.1 d (Option.mem_toList.mp hd)
    · exact keepFirst_within hread
    · exact ih (fun decl hdecl ↦ hread decl (keepFirst_subset _ _ hdecl)) hdecls.2 hfaults.2

/-- A conflict is reported at its field. -/
theorem Declaration.conflicts_location {field : Field Span} {leaves : LeafTable}
    {located : Located Span} (h : located ∈ decl.conflicts leaves field) :
    located.location = field.location := by
  have hconflict {name : String} {kind : MemberKind}
      (h : decl.conflict? field name kind = some located) : located.location = field.location := by
    rw [conflict?] at h
    split at h
    · rw [← Option.some.inj h]
    · cases h
  rw [conflicts, List.mem_append, Option.mem_toList, Option.mem_toList] at h
  rcases h with hconstant | hbuilder
  · exact hconflict hconstant
  · obtain ⟨builder, -, hbuilder⟩ := Option.bind_eq_some_iff.mp hbuilder
    exact hconflict hbuilder

theorem Declaration.synthesis_errors_location (leaves : LeafTable) (hdecl : P decl.location)
    (hfields : ∀ field ∈ decl.fields, P field.location) :
    ∀ located ∈ (decl.synthesis leaves).errors, P located.location := by
  rw [synthesis]
  cases decl.kind with
  | interface => exact List.forall_mem_singleton.mpr hdecl
  | cls =>
    intro located hlocated
    obtain ⟨field, hfield, hconflict⟩ := List.mem_flatMap.mp hlocated
    rw [conflicts_location hconflict]
    exact hfields field (List.mem_filter.mp hfield).1

theorem Declaration.diagnostics_within (leaves : LeafTable) (hdecl : P decl.location)
    (hfields : ∀ field ∈ decl.fields, P field.location) :
    ∀ d ∈ decl.diagnostics leaves, d.Within P := by
  rw [diagnostics]
  split
  · exact List.forall_mem_singleton.mpr ⟨hdecl, List.forall_mem_nil _⟩
  · intro d hd
    obtain ⟨located, hlocated, rfl⟩ := List.mem_map.mp hd
    have hplace := synthesis_errors_location leaves hdecl hfields located hlocated
    obtain ⟨error | _, location⟩ := located
    · exact ⟨hplace, List.forall_mem_nil _⟩
    · exact ⟨hplace, List.forall_mem_nil _⟩

end HandingOn

/-! ## Compilations -/

variable (sources : List Source) (leaves : LeafTable) (selection : Selection)

/-- The places of what is declared are those of names. -/
theorem parsedFrom_isPlace : ∀ decl ∈ parsedFrom 0 sources, IsPlace sources decl.location ∧
    ∀ field ∈ decl.fields, IsPlace sources field.location := by
  intro decl hdecl
  obtain ⟨i, source, hsource, hread⟩ := mem_parsedFrom hdecl
  rw [Nat.zero_add] at hread
  constructor
  · exact (SchemaFile.isNameIn_of_mem_read hread).isPlace hsource
  · exact fun field hfield ↦ (SchemaFile.field_isNameIn_of_mem_read hread hfield).isPlace hsource

theorem compile_within : ∀ d ∈ (compile sources leaves selection).diagnostics,
    d.Within (IsPlace sources) := by
  refine List.forall_mem_append.mpr ⟨collect_within nofun
    (fun decl hdecl ↦ (parsedFrom_isPlace sources decl hdecl).1) ?_, ?_⟩
  · rintro ⟨source, i⟩ hs d hd
    rw [SchemaFile.read_diagnostic, Option.mem_def, Option.map_eq_some_iff] at hd
    obtain ⟨φ, hφ, rfl⟩ := hd
    exact Fault.diagnostic_within (List.mk_mem_zipIdx_iff_getElem?.mp hs) hφ
  · intro d hd
    obtain ⟨decl, hselected, hd⟩ := List.mem_flatMap.mp hd
    have hdecl := (List.mem_filter.mp hselected).1
    rw [collect_declarations] at hdecl
    obtain ⟨hplace, hfields⟩ := parsedFrom_isPlace sources decl (keepFirst_subset _ _ hdecl)
    exact decl.diagnostics_within leaves hplace hfields d hd

/-- What is shown for a place is the place. -/
theorem IsPlace.isRange {sources : List Source} {span : Span} {source : Source}
    (h : IsPlace sources span) (hsource : sources[span.source]? = some source) :
    IsRange source.text span.start span.stop ∧
      Excerpt.shownRange (.ofString source.text) span = (span.start, span.stop) := by
  obtain ⟨source', hsource', i, hplace⟩ := h
  obtain rfl := Option.some.inj (hsource.symm.trans hsource')
  have hrange := SchemaFile.placeOf_isRange span.source source.text i
  have hshown := SchemaFile.shownRange_placeOf span.source source.text i
  rw [← hplace] at hrange hshown
  exact ⟨hrange, hshown⟩

section Shown

variable {sources : List Source} {d : Diagnostic} {own : Source}
  (h : d.Within (IsPlace sources)) (hown : sources[d.span.source]? = some own)

include h hown

/-- What a report marks are the diagnostic's place and the related places in its source. -/
theorem Diagnostic.marks_isRange :
    ∀ mark ∈ d.marks (.ofString own.text), IsRange own.text mark.start mark.stop := by
  have hmark {span : Span} (hplace : IsPlace sources span) (hsource : span.source = d.span.source) :
      IsRange own.text (Excerpt.shownRange (.ofString own.text) span).1
        (Excerpt.shownRange (.ofString own.text) span).2 := by
    obtain ⟨hrange, hshown⟩ := hplace.isRange (hsource ▸ hown)
    rwa [hshown]
  rw [marks]
  refine List.forall_mem_cons.mpr ⟨hmark h.span rfl, List.forall_mem_map.mpr fun r hr ↦ ?_⟩
  obtain ⟨hr, hsource⟩ := List.mem_filter.mp hr
  exact hmark (h.related r hr) (beq_iff_eq.mp hsource)

/-- What a report edits is the diagnostic's place. -/
theorem Diagnostic.edit?_isRange :
    ∀ edit ∈ d.edit? (.ofString own.text), IsRange own.text edit.start edit.stop := by
  intro edit hedit
  obtain ⟨fix, -, rfl⟩ := Option.map_eq_some_iff.mp hedit
  obtain ⟨hrange, hshown⟩ := h.span.isRange hown
  rwa [hshown]

end Shown

/-- **Diagnostics point into their sources.** Every place that a diagnostic of a compilation speaks
of, its own and the related ones, is in a source that there is, and it is a range of bytes of its
text that starts and ends between characters. So are the ranges that are marked and edited in a
report of the diagnostic, which are ranges of the diagnostic's own source. -/
theorem compile_spans_inside :
    ∀ d ∈ (compile sources leaves selection).diagnostics,
      (∀ span ∈ d.span :: d.related.map (·.span), ∃ source,
        sources[span.source]? = some source ∧ IsRange source.text span.start span.stop) ∧
      ∃ own, sources[d.span.source]? = some own ∧
        (∀ mark ∈ d.marks (.ofString own.text), IsRange own.text mark.start mark.stop) ∧
        ∀ edit ∈ d.edit? (.ofString own.text), IsRange own.text edit.start edit.stop := by
  intro d hd
  have hwithin := compile_within sources leaves selection d hd
  obtain ⟨own, hown, -⟩ := hwithin.span
  refine ⟨?_, own, hown, Diagnostic.marks_isRange hwithin hown,
    Diagnostic.edit?_isRange hwithin hown⟩
  have hplaces : ∀ span ∈ d.span :: d.related.map (·.span), IsPlace sources span :=
    List.forall_mem_cons.mpr ⟨hwithin.span, List.forall_mem_map.mpr hwithin.related⟩
  intro span hspan
  obtain ⟨source, hsource, -⟩ := hplaces span hspan
  exact ⟨source, hsource, ((hplaces span hspan).isRange hsource).1⟩

/-- The end of a text whose last character has two bytes. -/
theorem compile_spans_inside_end :
    let text := "class // é"
    ∃ d ∈ (compile [⟨.inline, text⟩] {} .marked).diagnostics, d.span = ⟨0, 11, 11⟩ ∧
      IsRange text 11 11 ∧
        ∀ mark ∈ d.marks (.ofString text), IsRange text mark.start mark.stop := by
  intro text
  obtain ⟨d, hd, hspan⟩ : ∃ d ∈ (compile [⟨.inline, text⟩] {} .marked).diagnostics,
      d.span = ⟨0, 11, 11⟩ := by decide +kernel
  obtain ⟨hplaces, own, hown, hmarks, -⟩ := compile_spans_inside _ _ _ d hd
  obtain ⟨source, hsource, hrange⟩ := hplaces d.span List.mem_cons_self
  rw [hspan] at hown hsource hrange
  obtain rfl := Option.some.inj hown
  obtain rfl := Option.some.inj hsource
  exact ⟨d, hd, hspan, hrange, hmarks⟩

end FieldPaths
