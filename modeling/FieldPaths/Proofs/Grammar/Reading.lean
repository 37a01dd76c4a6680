import FieldPaths.Proofs.Grammar.Completeness

/-!
# How the rules read

Every rule follows its symbol (`Rule.Follows`): what it reads derives, what it reads before a fault
can be completed, and nothing beyond the first token left plays a part. The proofs go through the
steps of the rules. At each step where a fault is possible they say how what was read up to there
could have gone on; nothing is asked of the tokens that come instead.

The rules that call themselves do so with fewer tokens, which is what the proofs end by too.
-/

namespace FieldPaths

namespace Grammar

open Rule (Follows)

/-- A token of a kind, to complete what was read with. -/
def sample (kind : TokenKind) : Token := ⟨kind, 0, ""⟩

/-! ## Paths and types -/

theorem path_follows (wanted : Wanted) (tokens : List Token) :
    (rule (path wanted)).Follows IsPath plain tokens := by
  rw [rule_path]
  refine .expect ⟨[sample .ident], _, .name rfl⟩ fun name left hleft hname ↦ ?_
  refine .eat (fun dot left' hleft' hdot ↦ ?_) fun _ ↦ .pure (.name hname)
  exact (path_follows .pathSegment left').map (plain_le _)
    fun used path hpath ↦ .qualified hname hdot hpath
  termination_by tokens.length
  decreasing_by
    simp only [hleft, hleft', List.length_cons]
    omega

/-- The dimensions after a type. -/
def IsArrayOf (ty : TypeRef) : Symbol TypeRef := fun ts v ↦
  ∃ depth, IsDimensions ts depth ∧ v = deepened ty depth

theorem IsArrayOf.nil {ty : TypeRef} (hty : ty.arrayDepth ≤ TypeRef.maxArrayDepth) :
    IsArrayOf ty [] ty := ⟨0, .nil, (deepened_zero hty).symm⟩

theorem IsArrayOf.cons {ty v : TypeRef} {l r : Token} {ts : List Token} (hl : l.kind = .lBracket)
    (hr : r.kind = .rBracket) (h : IsArrayOf ty.arrayOf ts v) : IsArrayOf ty (l :: r :: ts) v := by
  obtain ⟨depth, hdims, rfl⟩ := h
  exact ⟨depth + 1, .cons hl hr hdims, deepened_arrayOf ty depth⟩

theorem dimensions_follows {ty : TypeRef} (hty : ty.arrayDepth ≤ TypeRef.maxArrayDepth)
    (tokens : List Token) : (rule (dimensions ty)).Follows (IsArrayOf ty) plain tokens := by
  have harray : ty.arrayOf.arrayDepth ≤ TypeRef.maxArrayDepth := Nat.min_le_right ..
  rw [rule_dimensions]
  refine .eat (fun l left hleft hl ↦ ?_) fun _ ↦ .pure (.nil hty)
  refine .expect ⟨[sample .rBracket], _, .cons hl rfl (.nil harray)⟩ fun r left' hleft' hr ↦ ?_
  exact (dimensions_follows harray left').mono (plain_le _) fun used v hv ↦ .cons hl hr hv
  termination_by tokens.length
  decreasing_by
    simp only [hleft, hleft', List.length_cons]
    omega

theorem IsType.of_plain {ts ds : List Token} {path : List String × String} {ty : TypeRef}
    (hpath : IsPath ts path) (h : IsArrayOf ⟨path.1, path.2, [], 0⟩ ds ty) :
    IsType (ts ++ ds) ty := by
  obtain ⟨depth, hdims, rfl⟩ := h
  exact deepened_flat .. ▸ .plain hpath hdims

theorem IsType.of_generic {ts as ds : List Token} {langle rangle : Token}
    {path : List String × String} {args : List TypeRef} {ty : TypeRef} (hpath : IsPath ts path)
    (hlangle : langle.kind = .lAngle) (hargs : IsTypeArgs as args) (hrangle : rangle.kind = .rAngle)
    (h : IsArrayOf ⟨path.1, path.2, args, 0⟩ ds ty) :
    IsType (ts ++ langle :: (as ++ rangle :: ds)) ty := by
  obtain ⟨depth, hdims, rfl⟩ := h
  exact deepened_flat .. ▸ .generic hpath hlangle hargs hrangle hdims

theorem IsType.ident : IsType [sample .ident] ⟨[], "", [], 0⟩ := .plain (.name rfl) .nil

theorem IsPath.length_pos {ts : List Token} {path : List String × String} (h : IsPath ts path) :
    0 < ts.length := by
  cases h <;> simp

theorem IsType.length_pos {ts : List Token} {ty : TypeRef} (h : IsType ts ty) : 0 < ts.length := by
  cases h with
  | plain hpath _ =>
    rw [List.length_append]
    exact Nat.add_pos_left hpath.length_pos _
  | generic hpath _ _ _ _ =>
    rw [List.length_append]
    exact Nat.add_pos_left hpath.length_pos _

mutual

theorem type_follows (tokens : List Token) : (rule type).Follows IsType plain tokens := by
  rw [rule_type]
  refine (path_follows .type tokens).bind (plain_le _)
    (fun used path hpath ↦ ⟨[], _, .plain hpath .nil⟩) fun ts left path htokens hpath ↦ ?_
  refine .eat (fun langle left' hleft hlangle ↦ ?_) fun _ ↦
    (dimensions_follows (Nat.zero_le _) left).mono (plain_le _) fun ds ty h ↦ .of_plain hpath h
  -- both faults after the first bracket are completed by closing it
  have hclose {as : List Token} {args : List TypeRef} (hargs : IsTypeArgs as args) :
      IsType (ts ++ langle :: (as ++ [sample .rAngle])) ⟨path.1, path.2, args, 0⟩ :=
    .generic hpath hlangle hargs rfl .nil
  refine (typeArgs_follows left').bind (plain_le _)
    (fun as args hargs ↦ ⟨[sample .rAngle], _, hclose hargs⟩) fun as left args hleft' hargs ↦ ?_
  refine .expect ⟨[sample .rAngle], _, hclose hargs⟩ fun rangle left hleft'' hrangle ↦ ?_
  exact (dimensions_follows (Nat.zero_le _) left).mono (plain_le _) fun ds ty h ↦
    .of_generic hpath hlangle hargs hrangle h
  termination_by (tokens.length, 0)
  decreasing_by
    have := hpath.length_pos
    simp only [htokens, hleft, List.length_cons, List.length_append]
    omega

theorem typeArgs_follows (tokens : List Token) :
    (rule typeArgs).Follows IsTypeArgs plain tokens := by
  rw [rule_typeArgs]
  refine (type_follows tokens).bind (plain_le _)
    (fun ts ty hty ↦ ⟨[], [ty], (List.append_nil ts).symm ▸ .one hty⟩)
    fun ts left ty htokens hty ↦ ?_
  refine .eat (fun comma left' hleft hcomma ↦ ?_) fun _ ↦ .pure_after (.one hty)
  exact (typeArgs_follows left').map (plain_le _) fun more tys hmore ↦ .cons hty hcomma hmore
  termination_by (tokens.length, 1)
  decreasing_by
    · exact Prod.Lex.right _ Nat.zero_lt_one
    · have := hty.length_pos
      simp only [htokens, hleft, List.length_cons, List.length_append]
      omega

end

/-! ## Members -/

theorem annotations_follows (tokens : List Token) :
    (rule annotations).Follows IsAnnotations plain tokens := by
  rw [rule_annotations]
  refine .eat (fun mark left hleft hmark ↦ ?_) fun _ ↦ .pure .nil
  have hcons (ts more : List Token) {path : List String × String} {names : List String}
      (hpath : IsPath ts path) (hmore : IsAnnotations more names) :
      IsAnnotations (mark :: (ts ++ more)) (path.2 :: names) := .cons hmark hpath hmore
  refine (path_follows .annotationName left).bind (plain_le _)
    (fun ts path hpath ↦ ⟨[], _, hcons ts [] hpath .nil⟩) fun ts left' path hleft' hpath ↦ ?_
  exact (annotations_follows left').map (plain_le _) fun more names hmore ↦
    hcons ts more hpath hmore
  termination_by tokens.length
  decreasing_by
    simp only [hleft, hleft', List.length_cons, List.length_append]
    omega

/-- A modifier is said again after a run of modifiers. -/
def repeats : Blame := fun used φ ↦ ∃ modifiers t left,
  φ = .repeatedModifier t (t :: left) ∧ IsModifiers used modifiers ∧ t.kind ∈ used.map Token.kind

theorem modifiers_follows {done : List Token} {said : Modifiers} (hdone : IsModifiers done said)
    (tokens : List Token) : (rule (modifiers said)).Follows (Symbol.after IsModifiers done)
      (repeats.after done) tokens := by
  -- on the tokens, since the rule goes on with other modifiers said each time
  induction tokens generalizing done said with
  | nil =>
    exact (Follows.pure_after hdone).congr_stops (stops_nil [.kwFinal, .kwStatic]) fun l ↦
      rule_modifiers_of_stops said
  | cons t left ih =>
    by_cases hstops : Stops [.kwFinal, .kwStatic] (t :: left)
    · exact (Follows.pure_after hdone).congr_stops hstops fun l ↦ rule_modifiers_of_stops said
    have ht : t.kind.isModifier = true := by
      rw [stops_cons, Decidable.not_not] at hstops
      revert hstops
      cases t.kind <;> decide
    have hdone' : IsModifiers (done ++ []) said := by rwa [List.append_nil]
    cases hsaid : hasSaid said t.kind with
    | false =>
      have hrest := ih (hdone.concat ht hsaid)
      rw [← Symbol.after_after, ← Blame.after_after] at hrest
      exact hrest.tail.congr_cons (rule_modifiers_adding ht hsaid)
    | true =>
      have hmem : t.kind ∈ (done ++ []).map Token.kind := (hdone'.hasSaid_iff t.kind).mp hsaid
      exact (Follows.fault (.repeatedModifier t []) rfl ⟨[], said, hdone'⟩
        (.inr ⟨said, t, left, rfl, hdone', hmem⟩)).congr_cons (rule_modifiers_repeated ht hsaid)

/-! ### Fields and methods -/

theorem isField_sample :
    IsField [sample .ident, sample .colon, sample .ident] (sample .ident, ⟨[], "", [], 0⟩) :=
  .mk rfl rfl .ident

/-- A field as its rule returns it. -/
def IsFieldOf (source : Nat) (names : List String) (mods : Modifiers) : Symbol (Field Span) :=
  fun ts v ↦ ∃ field, IsField ts field ∧ v = asField source names mods field

theorem field_follows (source : Nat) (names : List String) (mods : Modifiers)
    (tokens : List Token) :
    (rule (field source names mods)).Follows (IsFieldOf source names mods) plain tokens := by
  rw [rule_field]
  refine .expect ⟨_, _, _, isField_sample, rfl⟩ fun name left _ hname ↦ ?_
  refine .expect ⟨[sample .colon, sample .ident], _, _, .mk hname rfl .ident, rfl⟩
    fun colon left _ hcolon ↦ ?_
  exact (type_follows left).map (plain_le _) fun ts ty hty ↦ ⟨_, .mk hname hcolon hty, rfl⟩

/-- Parameters as their rule reads them, with the parenthesis that closes them. -/
def IsClosedParameters : Symbol Unit := fun ts _ ↦
  ∃ ps rparen, ts = ps ++ [rparen] ∧ IsParameters ps ∧ rparen.kind = .rParen

theorem IsParameters.close {ps : List Token} (h : IsParameters ps) :
    IsClosedParameters (ps ++ [sample .rParen]) () := ⟨ps, _, rfl, h, rfl⟩

theorem parameters_follows (tokens : List Token) :
    (rule parameters).Follows IsClosedParameters plain tokens := by
  rw [rule_parameters]
  refine .expect ⟨_, (), (IsParameters.one isField_sample).close⟩ fun name left hleft hname ↦ ?_
  refine .expect ⟨[sample .colon, sample .ident] ++ [sample .rParen], (),
    (IsParameters.one (.mk hname rfl .ident)).close⟩ fun colon left' hleft' hcolon ↦ ?_
  refine (type_follows left').bind (plain_le _) (fun ts ty hty ↦ ⟨[sample .rParen], (),
    (IsParameters.one (.mk hname hcolon hty)).close⟩) fun ts left'' ty hleft'' hty ↦ ?_
  refine .eat (fun comma left₃ hleft₃ hcomma ↦ ?_) fun _ ↦ ?_
  · refine (parameters_follows left₃).mono (plain_le _) fun used _ h ↦ ?_
    obtain ⟨ps, rparen, rfl, hps, hrparen⟩ := h
    exact ⟨name :: colon :: ts ++ comma :: ps, rparen, by simp,
      .cons (.mk hname hcolon hty) hcomma hps, hrparen⟩
  · refine .expect ⟨[sample .rParen], (), (IsParameters.one (.mk hname hcolon hty)).close⟩
      fun rparen left _ hrparen ↦ .pure ?_
    exact ⟨name :: colon :: ts, rparen, by simp, .one (.mk hname hcolon hty), hrparen⟩
  termination_by tokens.length
  decreasing_by
    simp only [hleft, hleft', hleft'', hleft₃, List.length_cons, List.length_append]
    omega

theorem returnType_follows (tokens : List Token) :
    returnType.Follows (fun ts _ ↦ IsReturnType ts) plain tokens := by
  refine .eat (fun colon left _ hcolon ↦ ?_) fun _ ↦ .pure .nil
  exact (type_follows left).map (plain_le _) fun ts ty hty ↦ .mk hcolon hty

/-- A method as its rule returns it. -/
def IsMethodOf (mods : Modifiers) : Symbol Method :=
  fun ts v ↦ ∃ name, IsMethod ts name ∧ v = ⟨name, mods.isStatic⟩

theorem method_follows (mods : Modifiers) (tokens : List Token) :
    (rule (method mods)).Follows (IsMethodOf mods) plain tokens := by
  rw [rule_method]
  have hclosed {word name lparen : Token} (hword : word.kind = .kwFn) (hname : name.kind = .ident)
      (hlparen : lparen.kind = .lParen) : IsMethod [word, name, lparen, sample .rParen] name.text :=
    .mk hword hname hlparen (.inl rfl) rfl .nil
  refine .expect ⟨[sample .kwFn, sample .ident, sample .lParen, sample .rParen], _, _,
    hclosed rfl rfl rfl, rfl⟩ fun word left _ hword ↦ ?_
  refine .expect ⟨[sample .ident, sample .lParen, sample .rParen], _, _,
    hclosed hword rfl rfl, rfl⟩ fun name left _ hname ↦ ?_
  refine .expect ⟨[sample .lParen, sample .rParen], _, _, hclosed hword hname rfl, rfl⟩
    fun lparen left _ hlparen ↦ ?_
  refine .eat (fun rparen left _ hrparen ↦ ?_) fun _ ↦ ?_
  · exact (returnType_follows left).map (plain_le _) fun rs _ hrs ↦
      ⟨name.text, .mk hword hname hlparen (.inl rfl) hrparen hrs, rfl⟩
  · have hopen {ps rs : List Token} {rparen : Token} (hps : IsParameters ps)
        (hrparen : rparen.kind = .rParen) (hrs : IsReturnType rs) :
        IsMethodOf mods (word :: name :: lparen :: (ps ++ [rparen] ++ rs))
          ⟨name.text, mods.isStatic⟩ := by
      rw [List.append_assoc]
      exact ⟨_, .mk hword hname hlparen (.inr hps) hrparen hrs, rfl⟩
    refine (parameters_follows left).bind (plain_le _) ?_ ?_
    · rintro used _ ⟨ps, rparen, rfl, hps, hrparen⟩
      exact ⟨[], _, hopen hps hrparen .nil⟩
    · rintro used left _ - ⟨ps, rparen, rfl, hps, hrparen⟩
      exact (returnType_follows left).map (plain_le _) fun rs _ hrs ↦ hopen hps hrparen hrs

theorem fieldOrMethod_follows (source : Nat) (names : List String) (mods : Modifiers)
    (tokens : List Token) : (rule (fieldOrMethod source names mods)).Follows
      (IsFieldOrMethod source names mods) plain tokens := by
  by_cases hstops : Stops [.kwFn, .ident] tokens
  · exact (Follows.fail .memberName ⟨_, _, .field isField_sample⟩).congr_stops hstops fun l hl ↦
      rule_fieldOrMethod_of_stops hl source names mods
  obtain ⟨t, left, rfl, hkind⟩ := exists_cons_of_not_stops hstops
  simp only [List.mem_cons, List.not_mem_nil, or_false] at hkind
  rcases hkind with hfn | hident
  · have hmethod := (method_follows mods (t :: left)).map (f := Member.method) (F := plain)
      (S := IsFieldOrMethod source names mods) (plain_le _) fun ts v ⟨name, h, hv⟩ ↦ hv ▸ .method h
    exact hmethod.congr_cons (rule_fieldOrMethod_fn hfn source names mods)
  · have hfield := (field_follows source names mods (t :: left)).map (f := Member.field)
      (F := plain) (S := IsFieldOrMethod source names mods) (plain_le _)
      fun ts v ⟨field, h, hv⟩ ↦ hv ▸ .field h
    exact hfield.congr_cons (rule_fieldOrMethod_ident hident source names mods)

/-- A modifier is said again after the annotations and some modifiers of a member. -/
def memberBlame : Blame := fun used φ ↦ ∃ as ms names,
  used = as ++ ms ∧ IsAnnotations as names ∧ repeats ms φ

theorem member_follows (source : Nat) (tokens : List Token) :
    (rule (member source)).Follows (IsMember source) memberBlame tokens := by
  rw [rule_member]
  refine (annotations_follows tokens).bind (plain_le _)
    (fun as names has ↦ ⟨_, _, .mk has .nil (.field isField_sample) .nil⟩)
    fun as left names _ has ↦ ?_
  refine (modifiers_follows .nil left).bind (fun ms φ hφ ↦ ⟨as, ms, names, rfl, has, hφ⟩)
    (fun ms mods hms ↦ ⟨_, _, .mk has hms (.field isField_sample) .nil⟩) fun ms left mods _ hms ↦ ?_
  -- a member is complete with or without the semicolon
  have hmember {ts ss : List Token} {v : Member} (hcore : IsFieldOrMethod source names mods ts v)
      (hss : IsSemicolon ss) : IsMember source (as ++ (ms ++ (ts ++ ss))) v := .mk has hms hcore hss
  refine (fieldOrMethod_follows source names mods left).bind (plain_le _)
    (fun ts v hcore ↦ ⟨[], v, hmember hcore .nil⟩) fun ts left v _ hcore ↦ ?_
  refine .eat (fun semicolon left _ hsemicolon ↦ ?_) fun _ ↦ ?_
  · exact .pure (hmember hcore (.mk hsemicolon))
  · exact .pure (hmember hcore .nil)

/-! ## Declarations -/

/-- A body as its rule reads it, with the brace that closes it. -/
def IsClosedBody (source : Nat) : Symbol (List Member) := fun ts members ↦
  ∃ ms rbrace, ts = ms ++ [rbrace] ∧ IsMembers source ms members ∧ rbrace.kind = .rBrace

theorem IsMembers.close {source : Nat} {ms : List Token} {members : List Member}
    (h : IsMembers source ms members) : IsClosedBody source (ms ++ [sample .rBrace]) members :=
  ⟨ms, _, rfl, h, rfl⟩

theorem IsClosedBody.cons {source : Nat} {ts more : List Token} {member : Member}
    {members : List Member} (hmember : IsMember source ts member)
    (hmore : IsClosedBody source more members) :
    IsClosedBody source (ts ++ more) (member :: members) := by
  obtain ⟨ms, rbrace, rfl, hms, hrbrace⟩ := hmore
  exact ⟨ts ++ ms, rbrace, (List.append_assoc ..).symm, .cons hmember hms, hrbrace⟩

/-- After some members, a modifier is said again in one more, or the text ends. -/
def bodyBlame (source : Nat) (name brace : Token) : Blame := fun used φ ↦
  ∃ ms more members, used = ms ++ more ∧ IsMembers source ms members ∧
    (memberBlame more φ ∨ more = [] ∧ φ = .unclosedBody name brace)

theorem bodyBlame.cons {source : Nat} {name brace : Token} {ts used : List Token} {member : Member}
    {φ : Fault} (hmember : IsMember source ts member) (h : bodyBlame source name brace used φ) :
    bodyBlame source name brace (ts ++ used) φ := by
  obtain ⟨ms, more, members, rfl, hms, hφ⟩ := h
  exact ⟨ts ++ ms, more, member :: members, (List.append_assoc ..).symm, .cons hmember hms, hφ⟩

theorem body_follows (source : Nat) (name brace : Token) (tokens : List Token) :
    (rule (body source name brace)).Follows (IsClosedBody source) (bodyBlame source name brace)
      tokens := by
  cases tokens with
  | nil =>
    refine (Follows.fault (.unclosedBody name brace) rfl ⟨_, _, IsMembers.nil.close⟩
      (.inr ⟨[], [], [], rfl, .nil, .inr ⟨rfl, rfl⟩⟩)).congr_head fun l hl ↦ ?_
    rw [List.head?_eq_none_iff.mp hl]
    exact rule_body_nil source name brace
  | cons t left =>
    by_cases hrbrace : t.kind = .rBrace
    · have hclosed : (pure [] : Rule (List Member)).tail.Follows (IsClosedBody source)
          (bodyBlame source name brace) (t :: left) := .tail (.pure ⟨[], t, rfl, .nil, hrbrace⟩)
      exact hclosed.congr_cons (rule_body_close hrbrace source name brace)
    · have hstep : (do
          let first ← rule (member source)
          let more ← rule (body source name brace)
          return first :: more : Rule (List Member)).Follows (IsClosedBody source)
            (bodyBlame source name brace) (t :: left) := by
        refine (member_follows source (t :: left)).bind
          (fun used φ hφ ↦ ⟨[], used, [], rfl, .nil, .inl hφ⟩)
          (fun ts v hv ↦ ⟨_, _, .cons hv IsMembers.nil.close⟩) fun ts left' v hleft hv ↦ ?_
        exact (body_follows source name brace left').map (fun used φ ↦ .cons hv)
          fun used more ↦ .cons hv
      refine hstep.congr_cons fun l ↦ rule_body_member (List.cons_ne_nil t l) ?_ source name brace
      simpa using hrbrace
  termination_by tokens.length
  decreasing_by
    have := List.length_pos_iff.mpr hv.ne_nil
    rw [hleft, List.length_append]
    omega

/-- The word of a declaration as its rule reads it. -/
def IsDeclWord : Symbol DeclKind := fun ts kind ↦ ∃ word, ts = [word] ∧ IsDeclKind word kind

theorem declKind_follows (tokens : List Token) :
    (rule declKind).Follows IsDeclWord plain tokens := by
  have hword {t : Token} {kind : DeclKind} (h : IsDeclKind t kind) (left : List Token) :
      (rule declKind).Follows IsDeclWord plain (t :: left) := by
    have hpure : (pure kind : Rule DeclKind).tail.Follows IsDeclWord plain (t :: left) :=
      .tail (.pure ⟨t, rfl, h⟩)
    exact hpure.congr_cons (rule_declKind h)
  by_cases hstops : Stops [.kwClass, .kwInterface] tokens
  · exact (Follows.fail .declaration ⟨_, _, sample .kwClass, rfl, .cls rfl⟩).congr_stops hstops
      fun l ↦ rule_declKind_of_stops
  obtain ⟨t, left, rfl, hkind⟩ := exists_cons_of_not_stops hstops
  simp only [List.mem_cons, List.not_mem_nil, or_false] at hkind
  rcases hkind with h | h
  · exact hword (.cls h) left
  · exact hword (.interface h) left

/-- What a fault in the body of a declaration says. -/
def declBlame (source : Nat) : Blame := fun used φ ↦ ∃ hs more kind name brace names,
  used = hs ++ more ∧ IsHead hs kind name brace names ∧ bodyBlame source name brace more φ

theorem declaration_follows (source : Nat) (tokens : List Token) :
    (rule (declaration source)).Follows (IsDeclaration source) (declBlame source) tokens := by
  rw [rule_declaration]
  -- up to its body, a declaration can be completed to an empty one
  have hempty {as : List Token} {names : List String} (has : IsAnnotations as names)
      (word name brace : Token) {kind : DeclKind} (hword : IsDeclKind word kind)
      (hname : name.kind = .ident) (hbrace : brace.kind = .lBrace) :
      IsDeclaration source (as ++ [word, name, brace, sample .rBrace])
        (declared source kind name names []) := by
    have h : IsDeclaration source (as ++ [word, name, brace] ++ [sample .rBrace]) _ :=
      .mk (.mk has hword hname hbrace) .nil rfl
    rwa [List.append_assoc] at h
  refine (annotations_follows tokens).bind (plain_le _)
    (fun as names has ↦ ⟨_, _, hempty has (sample .kwClass) (sample .ident) (sample .lBrace)
      (.cls rfl) rfl rfl⟩) fun as left names _ has ↦ ?_
  refine (declKind_follows left).bind (plain_le _) ?_ ?_
  · rintro used kind ⟨word, rfl, hword⟩
    exact ⟨_, _, hempty has word (sample .ident) (sample .lBrace) hword rfl rfl⟩
  rintro used left kind - ⟨word, rfl, hword⟩
  refine .expect ⟨_, _, hempty has word (sample .ident) (sample .lBrace) hword rfl rfl⟩
    fun name left _ hname ↦ ?_
  refine .expect ⟨_, _, hempty has word name (sample .lBrace) hword hname rfl⟩
    fun brace left _ hbrace ↦ ?_
  have hhead : IsHead (as ++ [word, name, brace]) kind name brace names :=
    .mk has hword hname hbrace
  refine (body_follows source name brace left).map (fun used φ hφ ↦ ?_) ?_
  · exact ⟨_, used, kind, name, brace, names, by simp, hhead, hφ⟩
  · rintro used members ⟨ms, rbrace, rfl, hms, hrbrace⟩
    have h : IsDeclaration source (as ++ [word, name, brace] ++ (ms ++ [rbrace])) _ :=
      .mk hhead hms hrbrace
    rwa [List.append_assoc] at h

/-! ## Files -/

/-- What reading a file comes to: all of it derives, or it derives up to a declaration with a
fault. -/
theorem declarations_cases (source : Nat) (tokens : List Token) :
    (∃ decls, IsFile source tokens decls ∧ declarations source tokens = (decls, none)) ∨
      ∃ ts left decls φ, tokens = ts ++ left ∧ IsFile source ts decls ∧
        rule (declaration source) left = .error φ ∧
        declarations source tokens = (decls, some φ) := by
  by_cases hne : tokens = []
  · rw [hne, declarations_nil]
    exact .inl ⟨[], .nil, rfl⟩
  cases h : rule (declaration source) tokens with
  | error φ => exact .inr ⟨[], tokens, [], φ, rfl, .nil, h, declarations_of_error hne h⟩
  | ok p =>
    obtain ⟨decl, left⟩ := p
    obtain ⟨used, hused, hdecl⟩ := (declaration_follows source tokens).derives h
    rw [declarations_of_ok hne h]
    rcases declarations_cases source left with ⟨decls, hfile, heq⟩ | ⟨ts, left', decls, φ, hrest⟩
    · rw [heq, hused]
      exact .inl ⟨decl :: decls, .cons hdecl hfile, rfl⟩
    · obtain ⟨rfl, hfile, hφ, heq⟩ := hrest
      rw [heq, hused, ← List.append_assoc]
      exact .inr ⟨used ++ ts, left', decl :: decls, φ, rfl, .cons hdecl hfile, hφ, rfl⟩
  termination_by tokens.length
  decreasing_by
    have := List.length_pos_iff.mpr hdecl.ne_nil
    rw [hused, List.length_append]
    omega

theorem declarations_fault {source : Nat} {tokens : List Token} {φ : Fault}
    (h : (declarations source tokens).2 = some φ) : ∃ ts left decls, tokens = ts ++ left ∧
      IsFile source ts decls ∧ rule (declaration source) left = .error φ := by
  rcases declarations_cases source tokens with
    ⟨_, _, heq⟩ | ⟨ts, left, decls, φ', htokens, hfile, hφ, heq⟩
  · rw [heq] at h
    exact absurd h (Option.some_ne_none φ).symm
  · rw [heq] at h
    obtain rfl : φ' = φ := Option.some.inj h
    exact ⟨ts, left, decls, htokens, hfile, hφ⟩

/-- All tokens are read without a fault exactly if they derive, and what is returned is what they
denote. -/
theorem isFile_iff (source : Nat) (tokens : List Token) (decls : List (Declaration Span)) :
    IsFile source tokens decls ↔ declarations source tokens = (decls, none) := by
  constructor
  · intro h
    have hread := declarations_append h []
    rwa [declarations_nil, List.append_nil, List.append_nil] at hread
  · intro h
    rcases declarations_cases source tokens with ⟨decls', hfile, heq⟩ | ⟨_, _, _, φ, _, _, _, heq⟩
    · rw [heq] at h
      exact (Prod.mk.inj h).1 ▸ hfile
    · rw [heq] at h
      exact absurd (Prod.ext_iff.mp h).2 (Option.some_ne_none φ)

end Grammar

end FieldPaths
