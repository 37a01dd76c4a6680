import FieldPaths.Proofs.Declaration
import FieldPaths.Proofs.Grammar.Steps

/-!
# Places play no part in reading

What the rules read depends on the kinds and the texts of the tokens. Where the tokens are, and in
which source, is passed on to what is read and decides nothing.

To say so, tokens are taken out of their places: `unplaced` leaves a token what it is and puts it at
the front of the first source, and does the same to all that has a place. Taking the tokens out of
their places before they are read, or what was read out of its places afterwards, comes to the
same (`declarations_unplaced`), faults included. So any two sequences of tokens that differ in
places only are read alike.

`Rule.Unplaces` states this of single rules. As the rules are programs over the tokens that are
left, `Rule.Unplaces.bind` puts their steps together.
-/

namespace FieldPaths

/-! ## Without places -/

/-- The token at the front of the first source. -/
def Token.unplaced (t : Token) : Token := { t with start := 0 }

/-- A range of the same length at the front of the first source. -/
def Span.unplaced (span : Span) : Span := ⟨0, 0, span.stop - span.start⟩

theorem Token.unplaced_span (source : Nat) (t : Token) :
    (t.span source).unplaced = t.unplaced.span 0 := by
  rw [span, Span.unplaced, stop, span, stop, unplaced, Nat.add_sub_cancel_left, Nat.zero_add]

/-- The fault among tokens without their places. -/
def Fault.unplaced : Fault → Fault
  | unexpected wanted left => unexpected wanted (left.map Token.unplaced)
  | repeatedModifier modifier left => repeatedModifier modifier.unplaced (left.map Token.unplaced)
  | unclosedBody name brace => unclosedBody name.unplaced brace.unplaced

/-- The declaration without its places. -/
def Declaration.unplaced (decl : Declaration Span) : Declaration Span :=
  decl.mapLocation Span.unplaced

namespace Grammar

/-- The member without its places. -/
def Member.unplaced : Member → Member
  | .field f => .field (f.mapLocation Span.unplaced)
  | .method m => .method m

variable {α β γ δ : Type}

/-- What a rule comes to without places, when `e` takes a value out of its places. -/
def outcome (e : α → β) : Except Fault (α × List Token) → Except Fault (β × List Token)
  | .ok (v, left) => .ok (e v, left.map Token.unplaced)
  | .error φ => .error φ.unplaced

/-- Of tokens without their places, `y` reads what `x` reads of the tokens. -/
def Rule.Unplaces (x : Rule α) (e : α → β) (y : Rule β) (tokens : List Token) : Prop :=
  y (tokens.map Token.unplaced) = outcome e (x tokens)

namespace Rule.Unplaces

variable {tokens : List Token}

theorem pure (e : α → β) (v : α) :
    (Pure.pure v : Rule α).Unplaces e (Pure.pure (e v)) tokens := rfl

/-- **Steps put together.** -/
theorem bind {x : Rule α} {e : α → β} {y : Rule β} {g : α → Rule γ} {e' : γ → δ} {h : β → Rule δ}
    (hx : x.Unplaces e y tokens)
    (hg : ∀ v left, x tokens = .ok (v, left) → (g v).Unplaces e' (h (e v)) left) :
    (x >>= g).Unplaces e' (y >>= h) tokens := by
  rw [Unplaces] at hx ⊢
  cases hv : x tokens with
  | error φ =>
    rw [hv] at hx
    rw [bind_error hx, bind_error hv]
    rfl
  | ok p =>
    rw [hv] at hx
    rw [bind_ok hx, bind_ok hv]
    exact hg p.1 p.2 hv

theorem stops_unplaced {kinds : List TokenKind} :
    Stops kinds (tokens.map Token.unplaced) ↔ Stops kinds tokens := by
  cases tokens with
  | nil => exact Iff.rfl
  | cons t left => rw [List.map_cons, stops_cons, stops_cons, Token.unplaced]

/-- A choice made by the kind of the first token. -/
theorem eat {kind : TokenKind} {g : Option Token → Rule α} {e : α → β} {h : Option Token → Rule β}
    (hsome : ∀ t left, tokens = t :: left → (g (some t)).Unplaces e (h (some t.unplaced)) left)
    (hnone : (g none).Unplaces e (h none) tokens) :
    (Rule.eat kind >>= g).Unplaces e (Rule.eat kind >>= h) tokens := by
  by_cases hstops : Stops [kind] tokens
  · rw [Unplaces, eat_bind_of_stops hstops, eat_bind_of_stops (stops_unplaced.mpr hstops)]
    exact hnone
  · obtain ⟨t, left, rfl, hkind⟩ := exists_cons_of_not_stops hstops
    rw [List.mem_singleton] at hkind
    have hkind' : t.unplaced.kind = kind := hkind
    rw [Unplaces, List.map_cons, eat_bind_of_kind hkind, eat_bind_of_kind hkind']
    exact hsome t left rfl

/-- A token that has to be there. -/
theorem expect {wanted : Wanted} {kind : TokenKind} {g : Token → Rule α} {e : α → β}
    {h : Token → Rule β}
    (hg : ∀ t left, tokens = t :: left → (g t).Unplaces e (h t.unplaced) left) :
    (rule (Grammar.expect wanted kind) >>= g).Unplaces e
      (rule (Grammar.expect wanted kind) >>= h) tokens := by
  by_cases hstops : Stops [kind] tokens
  · rw [Unplaces, bind_error (expect_of_stops hstops),
      bind_error (expect_of_stops (stops_unplaced.mpr hstops))]
    rfl
  · obtain ⟨t, left, rfl, hkind⟩ := exists_cons_of_not_stops hstops
    rw [List.mem_singleton] at hkind
    have hkind' : t.unplaced.kind = kind := hkind
    rw [Unplaces, List.map_cons, bind_ok (expect_of_kind hkind _),
      bind_ok (expect_of_kind hkind' _)]
    exact hg t left rfl

end Rule.Unplaces

open Rule.Unplaces (stops_unplaced)

/-! ## Paths and types -/

theorem path_unplaces (wanted : Wanted) (tokens : List Token) :
    (rule (path wanted)).Unplaces id (rule (path wanted)) tokens := by
  rw [rule_path]
  refine .expect fun first left hleft ↦ ?_
  refine .eat (fun dot left' hleft' ↦ ?_) (.pure id _)
  exact (path_unplaces .pathSegment left').bind fun path _ _ ↦ .pure id _
  termination_by tokens.length
  decreasing_by
    simp only [hleft, hleft', List.length_cons]
    omega

theorem dimensions_unplaces (ty : TypeRef) (tokens : List Token) :
    (rule (dimensions ty)).Unplaces id (rule (dimensions ty)) tokens := by
  rw [rule_dimensions]
  refine .eat (fun l left hleft ↦ ?_) (.pure id _)
  refine .expect fun r left' hleft' ↦ ?_
  exact dimensions_unplaces ty.arrayOf left'
  termination_by tokens.length
  decreasing_by
    simp only [hleft, hleft', List.length_cons]
    omega

mutual

theorem type_unplaces (tokens : List Token) : (rule type).Unplaces id (rule type) tokens := by
  rw [rule_type]
  refine (path_unplaces .type tokens).bind fun path left hpath ↦ ?_
  refine .eat (fun langle left' hleft ↦ ?_) (dimensions_unplaces _ left)
  refine (typeArgs_unplaces left').bind fun args left _ ↦ ?_
  exact .expect fun rangle left _ ↦ dimensions_unplaces _ left
  termination_by (tokens.length, 0)
  decreasing_by
    have hlt := length_lt_of_rule hpath
    simp only [hleft, List.length_cons] at hlt
    exact Prod.Lex.left _ _ (by omega)

theorem typeArgs_unplaces (tokens : List Token) :
    (rule typeArgs).Unplaces id (rule typeArgs) tokens := by
  rw [rule_typeArgs]
  refine (type_unplaces tokens).bind fun ty left hty ↦ ?_
  refine .eat (fun comma left' hleft ↦ ?_) (.pure id _)
  exact (typeArgs_unplaces left').bind fun tys _ _ ↦ .pure id _
  termination_by (tokens.length, 1)
  decreasing_by
    · exact Prod.Lex.right _ Nat.zero_lt_one
    · have hlt := length_lt_of_rule hty
      simp only [hleft, List.length_cons] at hlt
      exact Prod.Lex.left _ _ (by omega)

end

/-! ## Members -/

theorem annotations_unplaces (tokens : List Token) :
    (rule annotations).Unplaces id (rule annotations) tokens := by
  rw [rule_annotations]
  refine .eat (fun mark left hleft ↦ ?_) (.pure id _)
  refine (path_unplaces .annotationName left).bind fun path left' hpath ↦ ?_
  exact (annotations_unplaces left').bind fun names _ _ ↦ .pure id _
  termination_by tokens.length
  decreasing_by
    have hlt := length_lt_of_rule hpath
    simp only [hleft, List.length_cons]
    omega

theorem modifiers_unplaces (said : Modifiers) (tokens : List Token) :
    (rule (modifiers said)).Unplaces id (rule (modifiers said)) tokens := by
  -- on the tokens, since the rule goes on with other modifiers said each time
  induction tokens generalizing said with
  | nil =>
    rw [Rule.Unplaces, List.map_nil, rule_modifiers_of_stops said (stops_nil _)]
    rfl
  | cons t left ih =>
    by_cases hstops : Stops [.kwFinal, .kwStatic] (t :: left)
    · rw [Rule.Unplaces, rule_modifiers_of_stops said hstops,
        rule_modifiers_of_stops said (stops_unplaced.mpr hstops)]
      rfl
    have ht : t.kind.isModifier = true := by
      rw [stops_cons, Decidable.not_not] at hstops
      revert hstops
      cases t.kind <;> decide
    have ht' : t.unplaced.kind.isModifier = true := ht
    cases hsaid : hasSaid said t.kind with
    | false =>
      have hsaid' : hasSaid said t.unplaced.kind = false := hsaid
      rw [Rule.Unplaces, List.map_cons, rule_modifiers_adding ht hsaid,
        rule_modifiers_adding ht' hsaid']
      exact ih _
    | true =>
      have hsaid' : hasSaid said t.unplaced.kind = true := hsaid
      rw [Rule.Unplaces, List.map_cons, rule_modifiers_repeated ht hsaid,
        rule_modifiers_repeated ht' hsaid']
      rfl

/-! ### Fields and methods -/

variable (source : Nat)

theorem field_unplaces (names : List String) (mods : Modifiers) (tokens : List Token) :
    (rule (field source names mods)).Unplaces (·.mapLocation Span.unplaced)
      (rule (field 0 names mods)) tokens := by
  rw [rule_field, rule_field]
  refine .expect fun name left _ ↦ ?_
  refine .expect fun colon left _ ↦ ?_
  refine (type_unplaces left).bind fun ty left _ ↦ ?_
  have hfield : (asField source names mods (name, ty)).mapLocation Span.unplaced
      = asField 0 names mods (name.unplaced, ty) := by
    rw [asField, Field.mapLocation, Token.unplaced_span]
    rfl
  rw [id, ← hfield]
  exact .pure _ _

theorem parameters_unplaces (tokens : List Token) :
    (rule parameters).Unplaces id (rule parameters) tokens := by
  rw [rule_parameters]
  refine .expect fun name left hleft ↦ ?_
  refine .expect fun colon left' hleft' ↦ ?_
  refine (type_unplaces left').bind fun ty more hty ↦ ?_
  refine .eat (fun comma more' hmore ↦ parameters_unplaces more') ?_
  exact .expect fun rparen _ _ ↦ .pure id _
  termination_by tokens.length
  decreasing_by
    have hlt := length_lt_of_rule hty
    simp only [hleft, hleft', hmore, List.length_cons] at hlt ⊢
    omega

theorem returnType_unplaces (tokens : List Token) :
    returnType.Unplaces id returnType tokens := by
  rw [returnType]
  refine .eat (fun colon left _ ↦ ?_) (.pure id _)
  exact (type_unplaces left).bind fun ty _ _ ↦ .pure id _

theorem method_unplaces (mods : Modifiers) (tokens : List Token) :
    (rule (method mods)).Unplaces id (rule (method mods)) tokens := by
  rw [rule_method]
  refine .expect fun word left _ ↦ ?_
  refine .expect fun name left _ ↦ ?_
  refine .expect fun lparen left _ ↦ ?_
  refine .eat (fun rparen left' _ ↦ ?_) ?_
  · exact (returnType_unplaces left').bind fun _ _ _ ↦ .pure id _
  · refine (parameters_unplaces left).bind fun _ left' _ ↦ ?_
    exact (returnType_unplaces left').bind fun _ _ _ ↦ .pure id _

theorem fieldOrMethod_unplaces (names : List String) (mods : Modifiers) (tokens : List Token) :
    (rule (fieldOrMethod source names mods)).Unplaces Member.unplaced
      (rule (fieldOrMethod 0 names mods)) tokens := by
  by_cases hstops : Stops [.kwFn, .ident] tokens
  · rw [Rule.Unplaces, rule_fieldOrMethod_of_stops hstops,
      rule_fieldOrMethod_of_stops (stops_unplaced.mpr hstops)]
    rfl
  obtain ⟨t, left, rfl, hkind⟩ := exists_cons_of_not_stops hstops
  rw [List.mem_cons, List.mem_singleton] at hkind
  rcases hkind with hfn | hident
  · have hfn' : t.unplaced.kind = .kwFn := hfn
    rw [Rule.Unplaces, List.map_cons, rule_fieldOrMethod_fn hfn, rule_fieldOrMethod_fn hfn']
    exact (method_unplaces mods (t :: left)).bind fun method _ _ ↦ .pure _ _
  · have hident' : t.unplaced.kind = .ident := hident
    rw [Rule.Unplaces, List.map_cons, rule_fieldOrMethod_ident hident,
      rule_fieldOrMethod_ident hident']
    exact (field_unplaces source names mods (t :: left)).bind fun field _ _ ↦ .pure _ _

theorem member_unplaces (tokens : List Token) :
    (rule (member source)).Unplaces Member.unplaced (rule (member 0)) tokens := by
  rw [rule_member, rule_member]
  refine (annotations_unplaces tokens).bind fun names left _ ↦ ?_
  refine (modifiers_unplaces {} left).bind fun mods left _ ↦ ?_
  refine (fieldOrMethod_unplaces source names mods left).bind fun member left _ ↦ ?_
  exact .eat (fun semicolon left _ ↦ .pure _ _) (.pure _ _)

/-! ## Declarations -/

theorem body_unplaces (name brace : Token) (tokens : List Token) :
    (rule (body source name brace)).Unplaces (List.map Member.unplaced)
      (rule (body 0 name.unplaced brace.unplaced)) tokens := by
  by_cases hstops : Stops [.rBrace] tokens
  · by_cases hne : tokens = []
    · rw [hne, Rule.Unplaces, List.map_nil, rule_body_nil, rule_body_nil]
      rfl
    · have hne' : tokens.map Token.unplaced ≠ [] := mt List.map_eq_nil_iff.mp hne
      rw [Rule.Unplaces, rule_body_member hne hstops,
        rule_body_member hne' (stops_unplaced.mpr hstops)]
      refine (member_unplaces source tokens).bind fun first left hfirst ↦ ?_
      exact (body_unplaces name brace left).bind fun more _ _ ↦ .pure _ _
  · obtain ⟨t, left, rfl, hkind⟩ := exists_cons_of_not_stops hstops
    rw [List.mem_singleton] at hkind
    have hkind' : t.unplaced.kind = .rBrace := hkind
    rw [Rule.Unplaces, List.map_cons, rule_body_close hkind, rule_body_close hkind']
    rfl
  termination_by tokens.length
  decreasing_by exact length_lt_of_rule hfirst

theorem declKind_unplaces (tokens : List Token) :
    (rule declKind).Unplaces id (rule declKind) tokens := by
  by_cases hstops : Stops [.kwClass, .kwInterface] tokens
  · rw [Rule.Unplaces, rule_declKind_of_stops hstops,
      rule_declKind_of_stops (stops_unplaced.mpr hstops)]
    rfl
  obtain ⟨t, left, rfl, hkind⟩ := exists_cons_of_not_stops hstops
  rw [List.mem_cons, List.mem_singleton] at hkind
  obtain ⟨kind, hword, hword'⟩ : ∃ kind, IsDeclKind t kind ∧ IsDeclKind t.unplaced kind := by
    rcases hkind with hcls | hinterface
    · exact ⟨.cls, .cls hcls, .cls hcls⟩
    · exact ⟨.interface, .interface hinterface, .interface hinterface⟩
  rw [Rule.Unplaces, List.map_cons, rule_declKind hword, rule_declKind hword']
  rfl

/-- What a declaration comes to, its parts taken out of their places. -/
theorem declared_unplaced (kind : DeclKind) (name : Token) (names : List String)
    (members : List Member) : (declared source kind name names members).unplaced
      = declared 0 kind name.unplaced names (members.map Member.unplaced) := by
  rw [declared, declared, Declaration.unplaced, Declaration.mapLocation, Token.unplaced_span]
  simp only [List.filterMap_map, List.map_filterMap]
  congr 1
  · congr 1
    funext member
    cases member <;> rfl
  · congr 1
    funext member
    cases member <;> rfl

theorem declaration_unplaces (tokens : List Token) :
    (rule (declaration source)).Unplaces Declaration.unplaced (rule (declaration 0)) tokens := by
  rw [rule_declaration, rule_declaration]
  refine (annotations_unplaces tokens).bind fun names left _ ↦ ?_
  refine (declKind_unplaces left).bind fun kind left _ ↦ ?_
  refine .expect fun name left _ ↦ ?_
  refine .expect fun brace left _ ↦ ?_
  refine (body_unplaces source name brace left).bind fun members left _ ↦ ?_
  rw [id, id, ← declared_unplaced source]
  exact .pure _ _

/-- **Places play no part.** Tokens without their places are read as the declarations without
theirs, up to the same fault. -/
theorem declarations_unplaced (tokens : List Token) :
    declarations 0 (tokens.map Token.unplaced)
      = ((declarations source tokens).1.map Declaration.unplaced,
          (declarations source tokens).2.map Fault.unplaced) := by
  by_cases hne : tokens = []
  · rw [hne, List.map_nil, declarations_nil, declarations_nil]
    rfl
  have hne' : tokens.map Token.unplaced ≠ [] := mt List.map_eq_nil_iff.mp hne
  have hfirst := declaration_unplaces source tokens
  rw [Rule.Unplaces] at hfirst
  cases hdecl : rule (declaration source) tokens with
  | error φ =>
    rw [hdecl] at hfirst
    rw [declarations_of_error hne hdecl, declarations_of_error hne' hfirst]
    rfl
  | ok p =>
    rw [hdecl] at hfirst
    rw [declarations_of_ok hne hdecl, declarations_of_ok hne' hfirst, declarations_unplaced p.2]
    rfl
  termination_by tokens.length
  decreasing_by exact length_lt_of_rule hdecl

end Grammar

end FieldPaths
