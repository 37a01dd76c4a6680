import FieldPaths.Proofs.Grammar.Steps

/-!
# What derives is read

Every rule reads what its symbol derives, all of it and no more, and returns what that denotes. A
derivation does not say where it stops, and a rule goes on as long as it can; so what follows must
not be something the symbol could go on with. Which kinds of tokens these are is a list for each
symbol. None is needed from a declaration upwards, since a declaration ends with a token of its own.

The rules for a body, a declaration and a file are stated with whatever comes after a part of what
they read. So it is stated at once what they do when all goes well there and when it does not.
-/

namespace FieldPaths

namespace Grammar

/-! ## What a symbol starts with

Stated as what it keeps the tokens from starting with. -/

section Stops

variable {kinds : List TokenKind} {ts left : List Token}

theorem IsDimensions.stops {depth : Nat} (h : IsDimensions ts depth) (hleft : Stops kinds left)
    (hkinds : .lBracket ∉ kinds) : Stops kinds (ts ++ left) := by
  cases h with
  | nil => exact hleft
  | cons hl => exact stops_cons.mpr (hl ▸ hkinds)

theorem IsAnnotations.stops {names : List String} (h : IsAnnotations ts names)
    (hleft : Stops kinds left) (hkinds : .at ∉ kinds) : Stops kinds (ts ++ left) := by
  cases h with
  | nil => exact hleft
  | cons hmark => exact stops_cons.mpr (hmark ▸ hkinds)

theorem IsModifiers.stops {modifiers : Modifiers} (h : IsModifiers ts modifiers)
    (hleft : Stops kinds left) (hkinds : ∀ kind ∈ kinds, kind.isModifier = false) :
    Stops kinds (ts ++ left) := by
  cases ts with
  | nil => exact hleft
  | cons t more =>
    refine stops_cons.mpr fun ht ↦ ?_
    have hmod := h.isModifier t List.mem_cons_self
    rw [hkinds _ ht] at hmod
    exact Bool.false_ne_true hmod

theorem IsField.stops {field : Token × TypeRef} (h : IsField ts field) (hkinds : .ident ∉ kinds) :
    Stops kinds (ts ++ left) := by
  cases h with
  | mk hname => exact stops_cons.mpr (hname ▸ hkinds)

theorem IsParameters.stops (h : IsParameters ts) (hkinds : .ident ∉ kinds) :
    Stops kinds (ts ++ left) := by
  cases h with
  | one hparam => exact hparam.stops hkinds
  | cons hparam _ _ =>
    rw [List.append_assoc]
    exact hparam.stops hkinds

theorem IsMethod.stops {name : String} (h : IsMethod ts name) (hkinds : .kwFn ∉ kinds) :
    Stops kinds (ts ++ left) := by
  cases h with
  | mk hword => exact stops_cons.mpr (hword ▸ hkinds)

theorem IsFieldOrMethod.stops {source : Nat} {names : List String} {modifiers : Modifiers}
    {member : Member} (h : IsFieldOrMethod source names modifiers ts member)
    (hkinds : .ident ∉ kinds ∧ .kwFn ∉ kinds) : Stops kinds (ts ++ left) := by
  cases h with
  | field hfield => exact hfield.stops hkinds.1
  | method hmethod => exact hmethod.stops hkinds.2

theorem IsReturnType.stops (h : IsReturnType ts) (hleft : Stops kinds left)
    (hkinds : .colon ∉ kinds) : Stops kinds (ts ++ left) := by
  cases h with
  | nil => exact hleft
  | mk hcolon => exact stops_cons.mpr (hcolon ▸ hkinds)

theorem IsSemicolon.stops (h : IsSemicolon ts) (hleft : Stops kinds left)
    (hkinds : .semicolon ∉ kinds) : Stops kinds (ts ++ left) := by
  cases h with
  | nil => exact hleft
  | mk h => exact stops_cons.mpr (h ▸ hkinds)

/-- The kinds of tokens that a member can start with. -/
def memberStarts : List TokenKind := [.at, .kwFinal, .kwStatic, .ident, .kwFn]

theorem IsMember.stops {source : Nat} {member : Member} (h : IsMember source ts member)
    (hkinds : ∀ kind ∈ memberStarts, kind ∉ kinds) : Stops kinds (ts ++ left) := by
  have hmods : ∀ kind ∈ kinds, kind.isModifier = false := by
    intro kind hkind
    cases kind <;> first | rfl | exact absurd hkind (hkinds _ (by decide))
  obtain ⟨hannots, hms, hcore, _⟩ := h
  rw [List.append_assoc, List.append_assoc, List.append_assoc]
  refine hannots.stops (hms.stops (hcore.stops ?_) hmods) (hkinds _ (by decide))
  exact ⟨hkinds _ (by decide), hkinds _ (by decide)⟩

theorem IsMember.ne_nil {source : Nat} {member : Member} (h : IsMember source ts member) :
    ts ≠ [] := by
  obtain ⟨_, _, hcore, _⟩ := h
  cases hcore with
  | field hfield => cases hfield; simp
  | method hmethod => cases hmethod; simp

theorem IsMembers.stops {source : Nat} {members : List Member} (h : IsMembers source ts members)
    (hleft : Stops kinds left) (hkinds : ∀ kind ∈ memberStarts, kind ∉ kinds) :
    Stops kinds (ts ++ left) := by
  cases h with
  | nil => exact hleft
  | cons hmember _ =>
    rw [List.append_assoc]
    exact hmember.stops hkinds

theorem IsDeclKind.stops {word : Token} {kind : DeclKind} (h : IsDeclKind word kind)
    (hkinds : .kwClass ∉ kinds ∧ .kwInterface ∉ kinds) : Stops kinds (word :: left) := by
  cases h with
  | cls h => exact stops_cons.mpr (h ▸ hkinds.1)
  | interface h => exact stops_cons.mpr (h ▸ hkinds.2)

end Stops

/-! ## Paths and types -/

variable {left : List Token}

theorem rule_path_append {ts : List Token} {p : List String × String} (h : IsPath ts p)
    (hleft : Stops [.dot] left) (wanted : Wanted) :
    rule (path wanted) (ts ++ left) = .ok (p, left) := by
  induction h generalizing wanted with
  | name hname =>
    rw [List.singleton_append, rule_path, bind_ok (expect_of_kind hname _), eat_bind_of_stops hleft]
    rfl
  | qualified hname hdot hmore ih =>
    rw [List.cons_append, rule_path, bind_ok (expect_of_kind hname _), List.cons_append,
      eat_bind_of_kind hdot]
    exact bind_ok (ih .pathSegment)

theorem rule_dimensions_append {ds : List Token} {depth : Nat} (h : IsDimensions ds depth)
    (hleft : Stops [.lBracket] left) {ty : TypeRef} (hty : ty.arrayDepth ≤ TypeRef.maxArrayDepth) :
    rule (dimensions ty) (ds ++ left) = .ok (deepened ty depth, left) := by
  induction h generalizing ty with
  | nil =>
    rw [List.nil_append, rule_dimensions, eat_bind_of_stops hleft, deepened_zero hty]
    rfl
  | cons hl hr hmore ih =>
    rw [List.cons_append, rule_dimensions, eat_bind_of_kind hl, List.cons_append]
    dsimp only
    rw [bind_ok (expect_of_kind hr _), ih (Nat.min_le_right ..), deepened_arrayOf]

/-- The kinds of tokens that a type can go on with. -/
def typeMore : List TokenKind := [.dot, .lAngle, .lBracket]

private theorem rule_named_append {q : List String} {n : String} {args : List TypeRef}
    {ds : List Token} {depth : Nat} (h : IsDimensions ds depth) (hleft : Stops typeMore left) :
    rule (dimensions ⟨q, n, args, 0⟩) (ds ++ left)
      = .ok (⟨q, n, args, min depth TypeRef.maxArrayDepth⟩, left) := by
  rw [rule_dimensions_append h (hleft.mono (by decide)) (Nat.zero_le _), deepened_flat]

mutual

theorem rule_type_append : ∀ {ts : List Token} {ty : TypeRef} {left : List Token}, IsType ts ty →
    Stops typeMore left → rule type (ts ++ left) = .ok (ty, left)
  | _, _, left, .plain hpath hdims, hleft => by
    rw [List.append_assoc, rule_type, bind_ok (rule_path_append hpath
        (hdims.stops (hleft.mono (by decide)) (by decide)) _),
      eat_bind_of_stops (hdims.stops (hleft.mono (by decide)) (by decide))]
    exact rule_named_append hdims hleft
  | _, _, left, .generic hpath hlangle hargs hrangle hdims, hleft => by
    rw [List.append_assoc, rule_type, bind_ok (rule_path_append hpath (by simp [hlangle]) _),
      List.cons_append, eat_bind_of_kind hlangle, List.append_assoc]
    dsimp only
    rw [bind_ok (rule_typeArgs_append hargs (by simp [typeMore, hrangle])),
      List.cons_append, bind_ok (expect_of_kind hrangle _)]
    exact rule_named_append hdims hleft

theorem rule_typeArgs_append : ∀ {ts : List Token} {tys : List TypeRef} {left : List Token},
    IsTypeArgs ts tys → Stops (.comma :: typeMore) left →
    rule typeArgs (ts ++ left) = .ok (tys, left)
  | _, _, left, .one hty, hleft => by
    rw [rule_typeArgs, bind_ok (rule_type_append hty (hleft.mono (by decide))),
      eat_bind_of_stops (hleft.mono (by decide))]
    rfl
  | _, _, left, .cons hty hcomma hmore, hleft => by
    rw [List.append_assoc, rule_typeArgs,
      bind_ok (rule_type_append hty (by simp [typeMore, hcomma])), List.cons_append,
      eat_bind_of_kind hcomma]
    exact bind_ok (rule_typeArgs_append hmore hleft)

end

/-! ## Members -/

theorem rule_annotations_append {ts : List Token} {names : List String} (h : IsAnnotations ts names)
    (hleft : Stops [.at, .dot] left) : rule annotations (ts ++ left) = .ok (names, left) := by
  induction h with
  | nil =>
    rw [List.nil_append, rule_annotations, eat_bind_of_stops (hleft.mono (by decide))]
    rfl
  | cons hmark hpath hmore ih =>
    rw [List.cons_append, List.append_assoc, rule_annotations, eat_bind_of_kind hmark]
    dsimp only
    rw [bind_ok (rule_path_append hpath (hmore.stops (hleft.mono (by decide)) (by decide)) _)]
    exact bind_ok ih

/-! ### Modifiers

The modifiers read so far are a run of modifiers themselves, and what they denote is what the rule
has gathered. -/

theorem IsModifiers.nil : IsModifiers [] {} where
  isModifier := nofun
  nodup := List.nodup_nil
  isFinal_iff := by simp
  isStatic_iff := by simp

theorem IsModifiers.hasSaid_iff {ts : List Token} {m : Modifiers} (h : IsModifiers ts m)
    (kind : TokenKind) : hasSaid m kind = true ↔ kind ∈ ts.map Token.kind := by
  have hnot (hkind : kind.isModifier = false) : kind ∉ ts.map Token.kind := by
    rintro hmem
    obtain ⟨t, ht, rfl⟩ := List.mem_map.mp hmem
    exact Bool.false_ne_true (hkind ▸ h.isModifier t ht)
  cases kind
  case kwFinal => exact h.isFinal_iff
  case kwStatic => exact h.isStatic_iff
  all_goals exact iff_of_false Bool.false_ne_true (hnot rfl)

theorem IsModifiers.unique {ts : List Token} {m m' : Modifiers} (h : IsModifiers ts m)
    (h' : IsModifiers ts m') : m = m' := by
  obtain ⟨f, s⟩ := m
  obtain ⟨f', s'⟩ := m'
  have hf : f = f' := Bool.eq_iff_iff.mpr (h.isFinal_iff.trans h'.isFinal_iff.symm)
  have hs : s = s' := Bool.eq_iff_iff.mpr (h.isStatic_iff.trans h'.isStatic_iff.symm)
  rw [hf, hs]

/-- A modifier that is not said yet can be said next. -/
theorem IsModifiers.concat {ts : List Token} {m : Modifiers} (h : IsModifiers ts m) {t : Token}
    (ht : t.kind.isModifier = true) (hm : hasSaid m t.kind = false) :
    IsModifiers (ts ++ [t]) (adding m t.kind) := by
  have hnew : t.kind ∉ ts.map Token.kind := fun hmem ↦
    Bool.false_ne_true (hm ▸ (h.hasSaid_iff _).mpr hmem)
  refine ⟨?_, ?_, ?_, ?_⟩
  · intro s hs
    rcases List.mem_append.mp hs with hs | hs
    · exact h.isModifier s hs
    · rwa [List.mem_singleton.mp hs]
  · rw [List.map_append, List.map_singleton, List.nodup_append]
    exact ⟨h.nodup, by simp, fun a ha b hb hab ↦ hnew (by simp_all)⟩
  · have hfinal := h.isFinal_iff
    cases hkind : t.kind <;> simp_all [adding, TokenKind.isModifier]
  · have hstatic := h.isStatic_iff
    cases hkind : t.kind <;> simp_all [adding, TokenKind.isModifier]

/-- A run of modifiers does not say its next modifier yet. -/
theorem IsModifiers.hasSaid_eq_false {ts more : List Token} {t : Token} {m m' : Modifiers}
    (h : IsModifiers ts m) (h' : IsModifiers (ts ++ t :: more) m') : hasSaid m t.kind = false := by
  rw [Bool.eq_false_iff]
  intro hsaid
  have hmem := (h.hasSaid_iff _).mp hsaid
  have hnodup := h'.nodup
  rw [List.map_append, List.map_cons, List.nodup_append] at hnodup
  exact hnodup.2.2 _ hmem _ List.mem_cons_self rfl

/-- After some modifiers the rule goes on with what is left. -/
theorem rule_modifiers_more {done ts : List Token} {said m : Modifiers}
    (hdone : IsModifiers done said) (h : IsModifiers (done ++ ts) m) (left : List Token) :
    rule (modifiers said) (ts ++ left) = rule (modifiers m) left := by
  induction ts generalizing done said with
  | nil =>
    rw [List.append_nil] at h
    rw [List.nil_append, hdone.unique h]
  | cons t ts ih =>
    -- the first modifier moves from those to come to those done
    have ht : t.kind.isModifier = true := h.isModifier t (by simp)
    have hsaid : hasSaid said t.kind = false := hdone.hasSaid_eq_false h
    rw [List.cons_append, rule_modifiers_adding ht hsaid]
    exact ih (hdone.concat ht hsaid) (by rwa [List.append_assoc])

theorem rule_modifiers_append {ts : List Token} {m : Modifiers} (h : IsModifiers ts m)
    (hleft : Stops [.kwFinal, .kwStatic] left) :
    rule (modifiers {}) (ts ++ left) = .ok (m, left) := by
  rw [rule_modifiers_more .nil h, rule_modifiers_of_stops m hleft]

/-! ### Fields and methods -/

theorem rule_field_append {ts : List Token} {field : Token × TypeRef} (h : IsField ts field)
    (hleft : Stops typeMore left) (source : Nat) (names : List String) (mods : Modifiers) :
    rule (Grammar.field source names mods) (ts ++ left)
      = .ok (asField source names mods field, left) := by
  cases h with
  | mk hname hcolon hty =>
    rw [List.cons_append, rule_field, bind_ok (expect_of_kind hname _), List.cons_append,
      bind_ok (expect_of_kind hcolon _)]
    exact bind_ok (rule_type_append hty hleft)

theorem rule_parameters_append {ts : List Token} (h : IsParameters ts) {rparen : Token}
    (hrparen : rparen.kind = .rParen) :
    rule parameters (ts ++ rparen :: left) = .ok ((), left) := by
  induction h with
  | one hparam =>
    obtain ⟨hname, hcolon, hty⟩ := hparam
    rw [List.cons_append, rule_parameters, bind_ok (expect_of_kind hname _), List.cons_append,
      bind_ok (expect_of_kind hcolon _),
      bind_ok (rule_type_append hty (by simp [typeMore, hrparen])),
      eat_bind_of_stops (by simp [hrparen])]
    exact bind_ok (expect_of_kind hrparen _)
  | cons hparam hcomma hmore ih =>
    obtain ⟨hname, hcolon, hty⟩ := hparam
    rw [List.append_assoc, List.cons_append, rule_parameters, bind_ok (expect_of_kind hname _),
      List.cons_append, bind_ok (expect_of_kind hcolon _),
      bind_ok (rule_type_append hty (by simp [typeMore, hcomma])), List.cons_append,
      eat_bind_of_kind hcomma]
    exact ih

theorem returnType_append {ts : List Token} (h : IsReturnType ts)
    (hleft : Stops (.colon :: typeMore) left) : returnType (ts ++ left) = .ok ((), left) := by
  cases h with
  | nil =>
    rw [List.nil_append, returnType, eat_bind_of_stops (hleft.mono (by decide))]
    rfl
  | mk hcolon hty =>
    rw [List.cons_append, returnType, eat_bind_of_kind hcolon]
    exact bind_ok (rule_type_append hty (hleft.mono (by decide)))

theorem rule_method_append {ts : List Token} {name : String} (h : IsMethod ts name)
    (hleft : Stops (.colon :: typeMore) left) (mods : Modifiers) :
    rule (method mods) (ts ++ left) = .ok (⟨name, mods.isStatic⟩, left) := by
  cases h with
  | mk hword hname hlparen hparams hrparen hreturn =>
    rw [List.cons_append, rule_method, bind_ok (expect_of_kind hword _), List.cons_append,
      bind_ok (expect_of_kind hname _), List.cons_append, bind_ok (expect_of_kind hlparen _),
      List.append_assoc, List.cons_append]
    -- the rule tells the two apart by the first token, which is a name if there are parameters
    rcases hparams with rfl | hparams
    · rw [List.nil_append, eat_bind_of_kind hrparen]
      exact bind_ok (returnType_append hreturn hleft)
    · rw [eat_bind_of_stops (hparams.stops (by decide))]
      dsimp only
      rw [bind_ok (rule_parameters_append hparams hrparen)]
      exact bind_ok (returnType_append hreturn hleft)

/-- The kinds of tokens that a member can go on with. -/
def memberMore : List TokenKind := .semicolon :: .colon :: typeMore

theorem semicolon_append {ts : List Token} (h : IsSemicolon ts) (hleft : Stops [.semicolon] left)
    (member : Member) :
    (do match ← Rule.eat .semicolon with
      | none => return member
      | some _ => return member : Rule Member) (ts ++ left) = .ok (member, left) := by
  cases h with
  | nil =>
    rw [List.nil_append, eat_bind_of_stops hleft]
    rfl
  | mk h =>
    rw [List.singleton_append, eat_bind_of_kind h]
    rfl

theorem rule_fieldOrMethod_append {source : Nat} {names : List String} {mods : Modifiers}
    {ts : List Token} {member : Member} (h : IsFieldOrMethod source names mods ts member)
    (hleft : Stops (.colon :: typeMore) left) :
    rule (fieldOrMethod source names mods) (ts ++ left) = .ok (member, left) := by
  cases h with
  | field hfield =>
    have hread := rule_field_append hfield (hleft.mono (by decide)) source names mods
    obtain ⟨hname, _, _⟩ := hfield
    rw [List.cons_append, rule_fieldOrMethod_ident hname]
    exact bind_ok hread
  | method hmethod =>
    have hread := rule_method_append hmethod hleft mods
    obtain ⟨hword, _, _, _, _, _⟩ := hmethod
    rw [List.cons_append, rule_fieldOrMethod_fn hword]
    exact bind_ok hread

theorem rule_member_append {source : Nat} {ts : List Token} {member : Member}
    (h : IsMember source ts member) (hleft : Stops memberMore left) :
    rule (Grammar.member source) (ts ++ left) = .ok (member, left) := by
  obtain ⟨hannots, hmods, hcore, hsemi⟩ := h
  rw [List.append_assoc, List.append_assoc, List.append_assoc, rule_member,
    bind_ok (rule_annotations_append hannots (hmods.stops (hcore.stops (by decide)) (by decide))),
    bind_ok (rule_modifiers_append hmods (hcore.stops (by decide))),
    bind_ok (rule_fieldOrMethod_append hcore (hsemi.stops (hleft.mono (by decide)) (by decide)))]
  exact semicolon_append hsemi (hleft.mono (by decide)) _

/-! ## Declarations -/

variable {source : Nat}

/-- After some members a body goes on with what is left. -/
theorem rule_body_append {ts : List Token} {members : List Member} (h : IsMembers source ts members)
    (hleft : Stops memberMore left) (name brace : Token) :
    rule (body source name brace) (ts ++ left)
      = (do return members ++ (← rule (body source name brace))) left := by
  induction h with
  | nil => exact congrFun (bind_pure _).symm left
  | cons hmember hmore ih =>
    -- no member starts with a closing brace, so the rule does read one
    rw [List.append_assoc,
      rule_body_member (List.append_ne_nil_of_left_ne_nil hmember.ne_nil _)
        (hmember.stops (by decide)),
      bind_ok (rule_member_append hmember (hmore.stops hleft (by decide))),
      bind_congr ih]
    simp only [bind_assoc, pure_bind, List.cons_append]

theorem IsHead.ne_nil {ts : List Token} {kind : DeclKind} {name brace : Token} {names : List String}
    (h : IsHead ts kind name brace names) : ts ≠ [] := by
  cases h with
  | mk => simp

/-- After its head a declaration goes on with its body. -/
theorem rule_declaration_append {ts : List Token} {kind : DeclKind} {name brace : Token}
    {names : List String} (h : IsHead ts kind name brace names) (left : List Token) :
    rule (declaration source) (ts ++ left)
      = (do return declared source kind name names (← rule (body source name brace))) left := by
  cases h with
  | mk hannots hword hname hbrace =>
    rw [List.append_assoc, rule_declaration]
    simp only [List.cons_append, List.nil_append]
    rw [bind_ok (rule_annotations_append hannots (hword.stops (by decide))),
      bind_ok (rule_declKind hword _), bind_ok (expect_of_kind hname _),
      bind_ok (expect_of_kind hbrace _)]

theorem rule_declaration_complete {ts : List Token} {decl : Declaration Span}
    (h : IsDeclaration source ts decl) (left : List Token) :
    rule (declaration source) (ts ++ left) = .ok (decl, left) := by
  cases h with
  | mk hhead hmembers hclose =>
    rw [List.append_assoc, rule_declaration_append hhead, List.append_assoc]
    refine bind_ok ?_
    rw [rule_body_append hmembers (by simp [memberMore, typeMore, hclose]), List.singleton_append,
      bind_ok (rule_body_close hclose ..), List.append_nil]
    rfl

theorem IsDeclaration.ne_nil {ts : List Token} {decl : Declaration Span}
    (h : IsDeclaration source ts decl) : ts ≠ [] := by
  cases h with
  | mk => simp

/-- After some declarations a file goes on with what is left. -/
theorem declarations_append {ts : List Token} {decls : List (Declaration Span)}
    (h : IsFile source ts decls) (left : List Token) :
    declarations source (ts ++ left)
      = (decls ++ (declarations source left).1, (declarations source left).2) := by
  induction h with
  | nil => rfl
  | cons hdecl hmore ih =>
    rw [List.append_assoc, declarations_of_ok (List.append_ne_nil_of_left_ne_nil hdecl.ne_nil _)
      (rule_declaration_complete hdecl _), ih]
    rfl

end Grammar

end FieldPaths
