import FieldPaths.Proofs.Grammar.Reading

/-!
# The first fault

What is wrong with tokens that are no file shows at the first place where they stop being the start
of one. Reading stops there: what it read up to the fault can be completed
(`Rule.Follows.completes`), and with the token at the fault nothing can be made of it any more,
because what comes after that token plays no part (`Rule.Follows.error_local`).

The two faults that say more than that something else was wanted are matters of a body. They are
stated by what derives before them, and read off in both directions: a body that is open can be
closed and one that is not cannot, and a modifier is repeated exactly if its member has it already.
-/

namespace FieldPaths

namespace Grammar

variable {source : Nat}

/-! ## Where tokens can end -/

/-- The tokens end in the body of the declaration `name`, which starts with `brace`, after some
members of it. -/
inductive IsOpenBody (source : Nat) : List Token → Token → Token → Prop
  | mk {fs hs ms : List Token} {decls : List (Declaration Span)} {kind : DeclKind}
      {name brace : Token} {names : List String} {members : List Member}
      (hdecls : IsFile source fs decls) (hhead : IsHead hs kind name brace names)
      (hmembers : IsMembers source ms members) : IsOpenBody source (fs ++ (hs ++ ms)) name brace

/-- After the tokens, `t` says a modifier again that its member has already. -/
inductive Repeats (source : Nat) : List Token → Token → Prop
  | mk {bs as ms : List Token} {name brace t : Token} {names : List String} {mods : Modifiers}
      (hbody : IsOpenBody source bs name brace) (hannots : IsAnnotations as names)
      (hmods : IsModifiers ms mods) (ht : t.kind ∈ ms.map Token.kind) :
      Repeats source (bs ++ (as ++ ms)) t

/-- The tokens start a file. -/
def IsViable (source : Nat) (ts : List Token) : Prop :=
  ∃ more decls, IsFile source (ts ++ more) decls

theorem IsFile.append {ts us : List Token} {decls decls' : List (Declaration Span)}
    (h : IsFile source ts decls) (h' : IsFile source us decls') :
    IsFile source (ts ++ us) (decls ++ decls') := by
  induction h with
  | nil => exact h'
  | cons hdecl _ ih =>
    rw [List.append_assoc]
    exact .cons hdecl ih

theorem IsDeclaration.isFile {ts : List Token} {decl : Declaration Span}
    (h : IsDeclaration source ts decl) : IsFile source ts [decl] :=
  List.append_nil ts ▸ .cons h .nil

theorem IsOpenBody.close {ts : List Token} {name brace rbrace : Token}
    (h : IsOpenBody source ts name brace) (hrbrace : rbrace.kind = .rBrace) :
    ∃ decls, IsFile source (ts ++ [rbrace]) decls := by
  obtain ⟨hdecls, hhead, hmembers⟩ := h
  have hdecl := (IsDeclaration.mk hhead hmembers hrbrace).isFile
  exact ⟨_, by simpa only [List.append_assoc] using hdecls.append hdecl⟩

/-- A file ends with the brace that closes its last body. -/
theorem IsFile.exists_isOpenBody {ts : List Token} {decls : List (Declaration Span)}
    (h : IsFile source ts decls) (hne : ts ≠ []) :
    ∃ bs name brace rbrace, IsOpenBody source bs name brace ∧ ts = bs ++ [rbrace] := by
  induction h with
  | nil => exact absurd rfl hne
  | @cons ts more decl decls hdecl hmore ih =>
    by_cases hnil : more = []
    · obtain @⟨hs, ms, kind, name, brace, rbrace, names, members, hhead, hmembers, -⟩ := hdecl
      exact ⟨hs ++ ms, name, brace, rbrace, .mk .nil hhead hmembers, by simp [hnil]⟩
    · -- the last body is one of those after the first declaration
      obtain ⟨bs, name, brace, rbrace, ⟨hdecls, hhead, hmembers⟩, rfl⟩ := ih hnil
      exact ⟨_, _, _, rbrace, .mk (.cons hdecl hdecls) hhead hmembers, by simp⟩

/-- A brace can close a body exactly where one is open. -/
theorem isFile_concat_iff {ts : List Token} {rbrace : Token} (hrbrace : rbrace.kind = .rBrace) :
    (∃ decls, IsFile source (ts ++ [rbrace]) decls) ↔
      ∃ name brace, IsOpenBody source ts name brace := by
  constructor
  · rintro ⟨decls, h⟩
    obtain ⟨bs, name, brace, rbrace', hbody, heq⟩ := h.exists_isOpenBody (by simp)
    exact ⟨name, brace, (List.append_inj_left' heq rfl) ▸ hbody⟩
  · rintro ⟨name, brace, h⟩
    exact h.close hrbrace

/-! ## What is read there -/

/-- In an open body a fault of the rest of the body is the fault of the file. -/
theorem IsOpenBody.declarations_of_error {ts left : List Token} {name brace : Token} {φ : Fault}
    (h : IsOpenBody source ts name brace) (hleft : Stops memberMore left)
    (hφ : rule (body source name brace) left = .error φ) :
    (declarations source (ts ++ left)).2 = some φ := by
  obtain @⟨fs, hs, ms, decls, kind, name, brace, names, members, hdecls, hhead, hmembers⟩ := h
  have hbody : rule (body source name brace) (ms ++ left) = .error φ := by
    rw [rule_body_append hmembers hleft, bind_error hφ]
  have hdecl : rule (declaration source) (hs ++ (ms ++ left)) = .error φ := by
    rw [rule_declaration_append hhead, bind_error hbody]
  have hne : hs ++ (ms ++ left) ≠ [] := List.append_ne_nil_of_left_ne_nil hhead.ne_nil _
  rw [List.append_assoc, List.append_assoc, declarations_append hdecls,
    Grammar.declarations_of_error hne hdecl]

theorem IsOpenBody.fault {ts : List Token} {name brace : Token}
    (h : IsOpenBody source ts name brace) :
    (declarations source ts).2 = some (.unclosedBody name brace) := by
  have hread := h.declarations_of_error (stops_nil _) (rule_body_nil source name brace)
  rwa [List.append_nil] at hread

theorem Repeats.isModifier {ts : List Token} {t : Token} (h : Repeats source ts t) :
    t.kind.isModifier = true := by
  obtain ⟨-, -, hmods, ht⟩ := h
  obtain ⟨s, hs, hkind⟩ := List.mem_map.mp ht
  exact hkind ▸ hmods.isModifier s hs

theorem Repeats.fault {ts : List Token} {t : Token} (h : Repeats source ts t) (left : List Token) :
    (declarations source (ts ++ t :: left)).2 = some (.repeatedModifier t (t :: left)) := by
  have ht := h.isModifier
  obtain @⟨bs, as, ms, name, brace, t, names, mods, hbody, hannots, hmods, hmem⟩ := h
  have hmods' {kinds : List TokenKind} (hkinds : ∀ kind ∈ kinds, kind.isModifier = false) :
      Stops kinds (ms ++ t :: left) := by
    refine hmods.stops (stops_cons.mpr fun hkind ↦ ?_) hkinds
    rw [hkinds _ hkind] at ht
    exact Bool.false_ne_true ht
  have hstops {kinds : List TokenKind} (hat : .at ∉ kinds)
      (hkinds : ∀ kind ∈ kinds, kind.isModifier = false) : Stops kinds (as ++ (ms ++ t :: left)) :=
    hannots.stops (hmods' hkinds) hat
  have hrepeated : rule (modifiers {}) (ms ++ t :: left)
      = .error (.repeatedModifier t (t :: left)) := by
    rw [rule_modifiers_more .nil hmods, rule_modifiers_repeated ht ((hmods.hasSaid_iff _).mpr hmem)]
  have hmember : rule (member source) (as ++ (ms ++ t :: left))
      = .error (.repeatedModifier t (t :: left)) := by
    rw [rule_member, bind_ok (rule_annotations_append hannots (hmods' (by decide))),
      bind_error hrepeated]
  rw [List.append_assoc, List.append_assoc]
  refine hbody.declarations_of_error (hstops (by decide) (by decide)) ?_
  rw [rule_body_member (by simp) (hstops (by decide) (by decide)), bind_error hmember]

/-! ## The tokens up to a fault -/

/-- What a fault that is more than something unexpected has to do with the tokens before it. -/
def fileBlame (source : Nat) : Blame := fun before φ ↦
  (∃ t left, φ = .repeatedModifier t (t :: left) ∧ Repeats source before t) ∨
    ∃ name brace, φ = .unclosedBody name brace ∧ IsOpenBody source before name brace

theorem fileBlame_of_declBlame {fs used : List Token} {decls : List (Declaration Span)} {φ : Fault}
    (hdecls : IsFile source fs decls) (h : declBlame source used φ) :
    fileBlame source (fs ++ used) φ := by
  obtain ⟨hs, -, kind, name, brace, names, rfl, hhead, ms, more, members, rfl, hmembers, h⟩ := h
  have hbody : IsOpenBody source (fs ++ (hs ++ ms)) name brace := .mk hdecls hhead hmembers
  rcases h with ⟨as, mods, names, rfl, hannots, modifiers, t, left, rfl, hmods, ht⟩ | ⟨rfl, rfl⟩
  · have hrepeats : Repeats source (fs ++ (hs ++ ms) ++ (as ++ mods)) t :=
      .mk hbody hannots hmods ht
    exact .inl ⟨t, left, rfl, by simpa only [List.append_assoc] using hrepeats⟩
  · exact .inr ⟨name, brace, rfl, by rwa [List.append_nil]⟩

/-- The tokens up to a fault start a file, and they are what the fault has to do with. -/
theorem declarations_completes {tokens : List Token} {φ : Fault}
    (h : (declarations source tokens).2 = some φ) : ∃ before, tokens = before ++ φ.left ∧
      IsViable source before ∧ (φ.IsUnexpected ∨ fileBlame source before φ) := by
  obtain ⟨ts, left, decls, rfl, hfile, hφ⟩ := declarations_fault h
  obtain ⟨used, rfl, ⟨more, decl, hdecl⟩, hblame⟩ := (declaration_follows source left).completes hφ
  refine ⟨ts ++ used, (List.append_assoc ..).symm, ⟨more, decls ++ [decl], ?_⟩,
    hblame.imp_right (fileBlame_of_declBlame hfile)⟩
  rw [List.append_assoc]
  exact hfile.append hdecl.isFile

theorem isViable_of_fault {before : List Token} {φ : Fault}
    (h : (declarations source (before ++ φ.left)).2 = some φ) : IsViable source before := by
  obtain ⟨before', htokens, hviable, -⟩ := declarations_completes h
  rwa [List.append_cancel_right htokens]

/-- Unrecognized characters are never a modifier, and at the end of the text there are none. -/
theorem isUnexpected_of_garbage {tokens : List Token} {φ : Fault} {t : Token}
    (h : (declarations source tokens).2 = some φ) (ht : φ.left.head? = some t)
    (hgarbage : t.kind = .garbage) : φ.IsUnexpected := by
  obtain ⟨before, -, -, hblame⟩ := declarations_completes h
  refine hblame.resolve_right ?_
  rintro (⟨t', left, rfl, hrepeats⟩ | ⟨name, brace, rfl, -⟩)
  · obtain rfl := Option.some.inj ht
    have hmodifier := hrepeats.isModifier
    rw [hgarbage] at hmodifier
    exact Bool.false_ne_true hmodifier
  · cases ht

/-- The fault says that a modifier is repeated exactly if the token there repeats one. -/
theorem fault_iff_repeats {before : List Token} {φ : Fault} {t : Token}
    (h : (declarations source (before ++ φ.left)).2 = some φ) :
    (∃ left, φ = .repeatedModifier t left) ↔ φ.left.head? = some t ∧ Repeats source before t := by
  constructor
  · rintro ⟨left, rfl⟩
    obtain ⟨before', htokens, -, hblame⟩ := declarations_completes h
    obtain rfl := List.append_cancel_right htokens
    rcases hblame with ⟨_, _, hφ⟩ | ⟨t', left', hφ, hrepeats⟩ | ⟨_, _, hφ, -⟩
    · cases hφ
    · cases hφ
      exact ⟨rfl, hrepeats⟩
    · cases hφ
  · rintro ⟨ht, hrepeats⟩
    obtain ⟨left, hleft⟩ := List.head?_eq_some_iff.mp ht
    rw [hleft, hrepeats.fault left] at h
    exact ⟨t :: left, (Option.some.inj h).symm⟩

/-- The fault says that a body is not closed exactly if the tokens end in one. -/
theorem fault_iff_isOpenBody {tokens : List Token} {φ : Fault} {name brace : Token}
    (h : (declarations source tokens).2 = some φ) :
    φ = .unclosedBody name brace ↔ IsOpenBody source tokens name brace := by
  constructor
  · rintro rfl
    obtain ⟨before, rfl, -, hblame⟩ := declarations_completes h
    rcases hblame with ⟨_, _, hφ⟩ | ⟨_, _, hφ, -⟩ | ⟨name', brace', hφ, hbody⟩
    · cases hφ
    · cases hφ
    · cases hφ
      rwa [Fault.left, List.append_nil]
  · intro hbody
    exact Option.some.inj (h.symm.trans hbody.fault)

/-- The tokens after the one at fault do not matter. -/
theorem declarations_local {c d rest : List Token} {φ : Fault}
    (h : (declarations source (c ++ rest)).2 = some φ) (hleft : φ.left = d ++ rest) (hd : d ≠ [])
    (rest' : List Token) :
    (declarations source (c ++ rest')).2 = some (φ.relocate (d ++ rest')) := by
  obtain ⟨ts, left, decls, htokens, hfile, hφ⟩ := declarations_fault h
  obtain ⟨used, hused, -⟩ := (declaration_follows source left).completes hφ
  rw [hleft, ← List.append_assoc] at hused
  -- the tokens compared go on at least to the one at fault, so the declarations done are among them
  obtain rfl : c = ts ++ (used ++ d) := by
    rw [hused, ← List.append_assoc] at htokens
    exact List.append_cancel_right htokens
  have hread := (declaration_follows source left).error_local hused hd hφ hleft rest'
  have hne : used ++ d ++ rest' ≠ [] := by simp [hd]
  rw [List.append_assoc, declarations_append hfile, declarations_of_error hne hread]

/-- Tokens up to and with the one at fault start no file. -/
theorem not_isViable {before left : List Token} {t : Token} {φ : Fault}
    (h : (declarations source (before ++ t :: left)).2 = some φ) (hleft : φ.left = t :: left) :
    ¬ IsViable source (before ++ [t]) := by
  rintro ⟨more, decls, hfile⟩
  rw [← List.singleton_append, ← List.append_assoc] at h
  have hread := declarations_local (d := [t]) h hleft (List.cons_ne_nil t []) more
  -- a file is read without a fault, and here the fault is the one read before
  rw [(isFile_iff ..).mp hfile] at hread
  exact absurd hread (Option.some_ne_none _).symm

end Grammar

end FieldPaths
