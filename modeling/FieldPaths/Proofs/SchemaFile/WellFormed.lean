import FieldPaths.Proofs.Grammar.Locations
import FieldPaths.Proofs.TypeRef
import FieldPaths.SchemaFile

/-!
# What is read is well formed

Whatever a text is, and wherever its first fault is, the declarations before the fault are made of
pieces of the text. All their names are spelled by tokens, those deep in the arguments of a type
too, so they are names that a schema can use. The names with a place stand there, and the places
come in the order of the text: a declaration, its fields, and only then the next declaration.

The names go up through the grammar, symbol by symbol (`Grammar.IsType.namesAre` and the lemmas
after it). Nothing in this is about how tokens come about, so it is said of any property of names.
-/

namespace FieldPaths

variable {P : String → Prop}

/-- All segments of all types in the type have the property. -/
def TypeRef.NamesAre (P : String → Prop) (ty : TypeRef) : Prop :=
  ty.Throughout fun part ↦ ∀ segment ∈ part.segments, P segment

/-- All names in the field have the property. -/
structure Field.NamesAre {L : Type} (P : String → Prop) (field : Field L) : Prop where
  name : P field.name
  attributes : ∀ marker ∈ field.attributes, P marker
  type : field.type.NamesAre P

/-- All names in the declaration have the property. -/
structure Declaration.NamesAre {L : Type} (P : String → Prop) (decl : Declaration L) : Prop where
  name : P decl.name
  attributes : ∀ marker ∈ decl.attributes, P marker
  fields : ∀ field ∈ decl.fields, field.NamesAre P
  methods : ∀ method ∈ decl.methods, P method.name

namespace Grammar

variable {source : Nat} {t : Token} {ts us : List Token}

/-! ## The names in what tokens derive -/

/-- The names among the tokens have the property. -/
def NamesAre (P : String → Prop) (ts : List Token) : Prop := ∀ t ∈ ts, t.kind = .ident → P t.text

@[simp]
theorem namesAre_cons :
    NamesAre P (t :: ts) ↔ (t.kind = .ident → P t.text) ∧ NamesAre P ts := List.forall_mem_cons

@[simp]
theorem namesAre_append : NamesAre P (ts ++ us) ↔ NamesAre P ts ∧ NamesAre P us :=
  List.forall_mem_append

theorem IsPath.namesAre {path : List String × String} (h : IsPath ts path) (hts : NamesAre P ts) :
    ∀ segment ∈ path.1 ++ [path.2], P segment := by
  induction h with
  | name hname => exact List.forall_mem_singleton.mpr (hts _ List.mem_cons_self hname)
  | qualified hname hdot hmore ih =>
    rw [namesAre_cons, namesAre_cons] at hts
    exact List.forall_mem_cons.mpr ⟨hts.1 hname, ih hts.2.2⟩

mutual

theorem IsType.namesAre {ts : List Token} {ty : TypeRef} :
    IsType ts ty → NamesAre P ts → ty.NamesAre P
  | .plain hpath hdims, hts => by
    rw [namesAre_append] at hts
    exact TypeRef.throughout_iff.mpr ⟨hpath.namesAre hts.1, nofun⟩
  | .generic hpath hlangle hargs hrangle hdims, hts => by
    rw [namesAre_append, namesAre_cons, namesAre_append] at hts
    obtain ⟨hpathNames, -, hargNames, -⟩ := hts
    exact TypeRef.throughout_iff.mpr ⟨hpath.namesAre hpathNames, hargs.namesAre hargNames⟩

theorem IsTypeArgs.namesAre {ts : List Token} {tys : List TypeRef} :
    IsTypeArgs ts tys → NamesAre P ts → ∀ ty ∈ tys, ty.NamesAre P
  | .one hty, hts => List.forall_mem_singleton.mpr (hty.namesAre hts)
  | .cons hty hcomma hmore, hts => by
    rw [namesAre_append, namesAre_cons] at hts
    exact List.forall_mem_cons.mpr ⟨hty.namesAre hts.1, hmore.namesAre hts.2.2⟩

end

theorem IsAnnotations.namesAre {names : List String} (h : IsAnnotations ts names)
    (hts : NamesAre P ts) : ∀ name ∈ names, P name := by
  induction h with
  | nil => exact List.forall_mem_nil _
  | cons hmark hpath hmore ih =>
    rw [namesAre_cons, namesAre_append] at hts
    have hlast := List.forall_mem_append.mp (hpath.namesAre hts.2.1)
    exact List.forall_mem_cons.mpr ⟨List.forall_mem_singleton.mp hlast.2, ih hts.2.2⟩

/-- All names in the member have the property. -/
def Member.NamesAre (P : String → Prop) : Member → Prop
  | .field f => f.NamesAre P
  | .method m => P m.name

theorem IsMember.namesAre {member : Member} (h : IsMember source ts member)
    (hts : NamesAre P ts) : member.NamesAre P := by
  obtain ⟨hannots, hmods, hcore, hsemi⟩ := h
  rw [namesAre_append, namesAre_append, namesAre_append] at hts
  obtain ⟨hannotNames, -, hcoreNames, -⟩ := hts
  cases hcore with
  | field hfield =>
    cases hfield with
    | mk hname hcolon hty =>
      rw [namesAre_cons, namesAre_cons] at hcoreNames
      obtain ⟨hnameIs, -, htypeNames⟩ := hcoreNames
      exact ⟨hnameIs hname, hannots.namesAre hannotNames, hty.namesAre htypeNames⟩
  | method hmethod =>
    cases hmethod with
    | mk hword hname hlparen hparams hrparen hreturn =>
      exact hcoreNames _ (List.mem_cons_of_mem _ List.mem_cons_self) hname

theorem IsMembers.namesAre {members : List Member} (h : IsMembers source ts members)
    (hts : NamesAre P ts) : ∀ member ∈ members, member.NamesAre P := by
  induction h with
  | nil => exact List.forall_mem_nil _
  | cons hmember _ ih =>
    rw [namesAre_append] at hts
    exact List.forall_mem_cons.mpr ⟨hmember.namesAre hts.1, ih hts.2⟩

theorem declared_namesAre {kind : DeclKind} {name : Token} {names : List String}
    {members : List Member} (hname : P name.text) (hnames : ∀ name ∈ names, P name)
    (hmembers : ∀ member ∈ members, member.NamesAre P) :
    (declared source kind name names members).NamesAre P where
  name := hname
  attributes := hnames
  fields := by
    intro field hfield
    obtain ⟨member, hmember, heq⟩ := List.mem_filterMap.mp hfield
    cases member with
    | field f =>
      obtain rfl := Option.some.inj heq
      exact hmembers _ hmember
    | method m => cases heq
  methods := by
    intro method hmethod
    obtain ⟨member, hmember, heq⟩ := List.mem_filterMap.mp hmethod
    cases member with
    | field f => cases heq
    | method m =>
      obtain rfl := Option.some.inj heq
      exact hmembers _ hmember

theorem IsDeclaration.namesAre {decl : Declaration Span} (h : IsDeclaration source ts decl)
    (hts : NamesAre P ts) : decl.NamesAre P := by
  obtain ⟨hhead, hmembers, hclose⟩ := h
  rw [namesAre_append, namesAre_append] at hts
  obtain ⟨hheadNames, hmemberNames, -⟩ := hts
  cases hhead with
  | mk hannots hword hname hbrace =>
    simp only [namesAre_append, namesAre_cons] at hheadNames
    obtain ⟨hannotNames, -, hnameIs, -⟩ := hheadNames
    exact declared_namesAre (hnameIs hname) (hannots.namesAre hannotNames)
      (hmembers.namesAre hmemberNames)

/-- What holds of the names among the tokens holds of all names in the declarations. -/
theorem IsFile.namesAre {decls : List (Declaration Span)} (h : IsFile source ts decls)
    (hts : NamesAre P ts) : ∀ decl ∈ decls, decl.NamesAre P := by
  induction h with
  | nil => exact List.forall_mem_nil _
  | cons hdecl _ ih =>
    rw [namesAre_append] at hts
    exact List.forall_mem_cons.mpr ⟨hdecl.namesAre hts.1, ih hts.2⟩

end Grammar

/-! ## The places of names -/

/-- The bytes from the start of the place to its stop are the name. -/
def Span.IsSliceOf (location : Span) (text name : String) : Prop :=
  ∃ front back : String, text = front ++ name ++ back ∧ front.utf8ByteSize = location.start ∧
    (front ++ name).utf8ByteSize = location.stop

theorem Token.isSliceOf_of_mem_scan {text : String} {t : Token} (ht : t ∈ scan text)
    (source : Nat) : (t.span source).IsSliceOf text t.text := by
  obtain ⟨after, ⟨before, htext, hstart⟩, -⟩ := exists_standsAt_of_mem_scan ht
  have hfront : (String.ofList before).utf8ByteSize = t.start := by
    rw [utf8ByteSize_ofList, hstart]
  refine ⟨String.ofList before, String.ofList after, ?_, hfront, ?_⟩
  · rw [← String.toList_inj, htext]
    simp only [String.toList_append, String.toList_ofList, List.append_assoc]
  · rw [String.utf8ByteSize_append, hfront]
    rfl

namespace SchemaFile

variable (source : Nat) (text : String)

theorem read_isFile : ∃ ts left, Token.scan text = ts ++ left ∧
    Grammar.IsFile source ts (read source text).declarations :=
  Grammar.declarations_isFile source (Token.scan text)

theorem read_namesAre : ∀ decl ∈ (read source text).declarations, decl.NamesAre IsSchemaName := by
  obtain ⟨ts, left, htokens, hfile⟩ := read_isFile source text
  refine hfile.namesAre fun t ht hkind ↦ ?_
  have htext : t ∈ Token.scan text := by
    rw [htokens]
    exact List.mem_append_left left ht
  exact isSchemaName_of_mem_scan htext hkind

/-- The names that have a place are tokens of the text, in their order. -/
theorem read_areNamesIn : Grammar.AreNamesIn source (Token.scan text)
    ((read source text).declarations.flatMap Declaration.places) := by
  obtain ⟨ts, left, htokens, hfile⟩ := read_isFile source text
  rw [htokens]
  exact hfile.areNamesIn.mono (List.sublist_append_left ts left)

section

variable {source : Nat} {text : String} {decl : Declaration Span}
  (h : decl ∈ (read source text).declarations)

include h

theorem isNameIn_of_mem_read :
    Grammar.IsNameIn source (Token.scan text) decl.name decl.location :=
  (read_areNamesIn source text).isNameIn (List.mem_flatMap.mpr ⟨decl, h, List.mem_cons_self⟩)

theorem field_isNameIn_of_mem_read {field : Field Span} (hfield : field ∈ decl.fields) :
    Grammar.IsNameIn source (Token.scan text) field.name field.location := by
  have hplace : (field.name, field.location) ∈ decl.places :=
    List.mem_cons_of_mem _ (List.mem_map_of_mem hfield)
  exact (read_areNamesIn source text).isNameIn (List.mem_flatMap.mpr ⟨decl, h, hplace⟩)

end

/-- Each place lies behind those before it. -/
theorem read_places_pairwise :
    ((read source text).declarations.flatMap Declaration.places).Pairwise fun a b ↦
      a.2.start < b.2.start ∧ a.2.stop ≤ b.2.start := by
  obtain ⟨names, hsub, -, hplaces⟩ := read_areNamesIn source text
  have hbehind : (Token.scan text).Pairwise fun s t ↦ s.start < t.start ∧ s.stop ≤ t.start :=
    (Token.scan_pairwise_start text).and (Token.scans_scan text).pairwise
  rw [hplaces, List.pairwise_map]
  exact hbehind.sublist hsub

/-- Declarations are in the order of their places. -/
theorem read_ordered : (read source text).declarations.Pairwise fun decl decl' ↦
    decl.location.start < decl'.location.start := by
  have hplaces := (List.pairwise_flatMap.mp (read_places_pairwise source text)).2
  refine hplaces.imp fun hbehind ↦ ?_
  exact (hbehind _ List.mem_cons_self _ List.mem_cons_self).1

/-- What declarations that are read from a text have in common, whatever else is in the text. -/
structure IsWellFormed (source : Nat) (text : String) (decls : List (Declaration Span)) :
    Prop where
  /-- All names are names that a schema can use. -/
  names : ∀ decl ∈ decls, decl.NamesAre IsSchemaName
  /-- Every type has a path, which a type can be made of. -/
  paths : ∀ decl ∈ decls, ∀ field ∈ decl.fields, field.type.Throughout fun ty ↦
    ty.segments ≠ [] ∧ TypeRef.ofSegments ty.segments = .ok ⟨ty.qualifier, ty.name, [], 0⟩
  /-- Declarations and fields are where their names stand. -/
  placed : ∀ place ∈ decls.flatMap Declaration.places,
    place.2.source = source ∧ place.2.IsSliceOf text place.1
  /-- Each place lies behind those before it: a declaration, its fields in their order, and then
  the next declaration. -/
  ordered : (decls.flatMap Declaration.places).Pairwise fun a b ↦
    a.2.start < b.2.start ∧ a.2.stop ≤ b.2.start

/-- **What is read is well formed**, whether the text is a schema file or not. -/
theorem read_wellFormed (source : Nat) (text : String) :
    IsWellFormed source text (read source text).declarations where
  names := read_namesAre source text
  paths decl _ field _ ty _ := ⟨ty.segments_ne_nil, ty.ofSegments_segments⟩
  placed := by
    rintro ⟨name, location⟩ hplace
    obtain ⟨t, ht, -, rfl, rfl⟩ := (read_areNamesIn source text).isNameIn hplace
    exact ⟨rfl, Token.isSliceOf_of_mem_scan ht source⟩
  ordered := read_places_pairwise source text

end SchemaFile

end FieldPaths
