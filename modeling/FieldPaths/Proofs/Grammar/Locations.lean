import FieldPaths.Proofs.Grammar.FirstFault

/-!
# Where the parts of a declaration are

The places that reading keeps are those of names: of the declarations, and of their fields. Nothing
is computed for them, so each is the place of a token that was read, and declarations are in the
order of these tokens.

A fault speaks of tokens as well. Those it keeps for its message are tokens that were read before it
or the one it stopped at, which is known from what has to do with it (`fileBlame`).
-/

namespace FieldPaths

/-- The name of a declaration with its place, and the names of its fields with theirs. -/
def Declaration.places (decl : Declaration Span) : List (String × Span) :=
  (decl.name, decl.location) :: decl.fields.map fun field ↦ (field.name, field.location)

namespace Grammar

variable {source : Nat} {ts us : List Token}

/-! ## Names -/

/-- The name and the place of something are those of a name among the tokens. -/
def IsNameIn (source : Nat) (ts : List Token) (name : String) (location : Span) : Prop :=
  ∃ t ∈ ts, t.kind = .ident ∧ name = t.text ∧ location = t.span source

/-- The names and the places are those of names among the tokens, in the order of the tokens. -/
def AreNamesIn (source : Nat) (ts : List Token) (places : List (String × Span)) : Prop :=
  ∃ names : List Token, names.Sublist ts ∧ (∀ t ∈ names, t.kind = .ident) ∧
    places = names.map fun t ↦ (t.text, t.span source)

namespace AreNamesIn

variable {places places' : List (String × Span)}

theorem nil : AreNamesIn source ts [] := ⟨[], List.nil_sublist ts, nofun, rfl⟩

theorem name {t : Token} (h : t.kind = .ident) :
    AreNamesIn source [t] [(t.text, t.span source)] :=
  ⟨[t], List.Sublist.refl _, List.forall_mem_singleton.mpr h, rfl⟩

theorem mono (h : AreNamesIn source ts places) (hsub : ts.Sublist us) :
    AreNamesIn source us places := by
  obtain ⟨names, hnames, hkinds, rfl⟩ := h
  exact ⟨names, hnames.trans hsub, hkinds, rfl⟩

theorem append (h : AreNamesIn source ts places) (h' : AreNamesIn source us places') :
    AreNamesIn source (ts ++ us) (places ++ places') := by
  obtain ⟨names, hnames, hkinds, rfl⟩ := h
  obtain ⟨names', hnames', hkinds', rfl⟩ := h'
  refine ⟨names ++ names', hnames.append hnames', ?_, List.map_append.symm⟩
  exact List.forall_mem_append.mpr ⟨hkinds, hkinds'⟩

theorem isNameIn (h : AreNamesIn source ts places) {place : String × Span}
    (hplace : place ∈ places) : IsNameIn source ts place.1 place.2 := by
  obtain ⟨names, hnames, hkinds, rfl⟩ := h
  obtain ⟨t, ht, rfl⟩ := List.mem_map.mp hplace
  exact ⟨t, hnames.subset ht, hkinds t ht, rfl, rfl⟩

end AreNamesIn

/-! ## The names of fields and declarations -/

/-- The place of a member is kept if it is a field. -/
def Member.places : Member → List (String × Span)
  | .field f => [(f.name, f.location)]
  | .method _ => []

theorem IsField.areNamesIn {field : Token × TypeRef} (h : IsField ts field) :
    AreNamesIn source ts [(field.1.text, field.1.span source)] := by
  cases h with
  | mk hname hcolon hty => exact (AreNamesIn.name hname).mono (by simp)

theorem IsMember.areNamesIn {member : Member} (h : IsMember source ts member) :
    AreNamesIn source ts member.places := by
  obtain @⟨as, ms, ts, ss, names, modifiers, member, hannots, hmods, hcore, hsemi⟩ := h
  have hsub : ts.Sublist (as ++ (ms ++ (ts ++ ss))) :=
    (List.sublist_append_left ts ss).trans
      ((List.sublist_append_right ms _).trans (List.sublist_append_right as _))
  cases hcore with
  | field hfield => exact hfield.areNamesIn.mono hsub
  | method hmethod => exact .nil

theorem IsMembers.areNamesIn {members : List Member} (h : IsMembers source ts members) :
    AreNamesIn source ts (members.flatMap Member.places) := by
  induction h with
  | nil => exact .nil
  | cons hmember _ ih => exact hmember.areNamesIn.append ih

/-- The fields of a declaration are where they are among its members. -/
theorem places_declared {kind : DeclKind} {name : Token} {names : List String}
    {members : List Member} : (declared source kind name names members).places
      = (name.text, name.span source) :: members.flatMap Member.places := by
  rw [Declaration.places, declared]
  congr 1
  induction members with
  | nil => rfl
  | cons member members ih =>
    rw [List.flatMap_cons, ← ih]
    cases member with
    | field field => rfl
    | method method => rfl

theorem IsHead.areNamesIn {kind : DeclKind} {name brace : Token} {names : List String}
    (h : IsHead ts kind name brace names) :
    AreNamesIn source ts [(name.text, name.span source)] := by
  cases h with
  | mk hannots hword hname hbrace =>
    exact (AreNamesIn.name hname).mono (List.singleton_sublist.mpr (by simp))

theorem IsDeclaration.areNamesIn {decl : Declaration Span} (h : IsDeclaration source ts decl) :
    AreNamesIn source ts decl.places := by
  cases h with
  | mk hhead hmembers hclose =>
    rw [places_declared]
    exact hhead.areNamesIn.append (hmembers.areNamesIn.mono (List.sublist_append_left ..))

/-- A declaration is where its name is, and so are its fields; they come in the order of their
names. -/
theorem IsFile.areNamesIn {decls : List (Declaration Span)} (h : IsFile source ts decls) :
    AreNamesIn source ts (decls.flatMap Declaration.places) := by
  induction h with
  | nil => exact .nil
  | cons hdecl _ ih => exact hdecl.areNamesIn.append ih

/-! ## What is declared -/

/-- What is declared before the first fault derives. -/
theorem declarations_isFile (source : Nat) (tokens : List Token) :
    ∃ ts left, tokens = ts ++ left ∧ IsFile source ts (declarations source tokens).1 := by
  rcases declarations_cases source tokens with
    ⟨decls, hfile, heq⟩ | ⟨ts, left, decls, φ, htokens, hfile, -, heq⟩
  · exact ⟨tokens, [], (List.append_nil _).symm, heq ▸ hfile⟩
  · exact ⟨ts, left, htokens, heq ▸ hfile⟩

/-! ## The tokens of a fault -/

theorem IsOpenBody.mem {name brace : Token} (h : IsOpenBody source ts name brace) :
    name ∈ ts ∧ brace ∈ ts := by
  obtain ⟨hdecls, hhead, hmembers⟩ := h
  cases hhead with
  | mk hannots hword hname hbrace => constructor <;> simp

/-- The tokens that a fault keeps. -/
def tokensOf : Fault → List Token
  | .unexpected _ left => left.head?.toList
  | .repeatedModifier modifier _ => [modifier]
  | .unclosedBody name brace => [name, brace]

theorem tokensOf_subset {tokens : List Token} {φ : Fault}
    (h : (declarations source tokens).2 = some φ) : tokensOf φ ⊆ tokens := by
  obtain ⟨before, rfl, -, hblame⟩ := declarations_completes h
  rcases hblame with ⟨wanted, left, rfl⟩ | ⟨t, left, rfl, -⟩ | ⟨name, brace, rfl, hbody⟩
  · intro t ht
    exact List.mem_append_right _ (List.mem_of_mem_head? (Option.mem_toList.mp ht))
  · intro s hs
    obtain rfl := List.mem_singleton.mp hs
    exact List.mem_append_right _ List.mem_cons_self
  · obtain ⟨hname, hbrace⟩ := hbody.mem
    refine List.forall_mem_cons.mpr ⟨List.mem_append_left _ hname, ?_⟩
    exact List.forall_mem_singleton.mpr (List.mem_append_left _ hbrace)

end Grammar

end FieldPaths
