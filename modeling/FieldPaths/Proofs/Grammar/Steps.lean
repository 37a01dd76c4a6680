import FieldPaths.Proofs.Grammar.Rule

/-!
# The steps of the rules

Each rule of the grammar, its bound forgotten, as the program of its steps. The rules that choose by
the kind of the first token have an equation for each choice.
-/

namespace FieldPaths

namespace Grammar

/-! ## Paths and types -/

/-- A type with some array dimensions more, as long as they are counted. -/
def deepened (ty : TypeRef) (depth : Nat) : TypeRef :=
  { ty with arrayDepth := min (ty.arrayDepth + depth) TypeRef.maxArrayDepth }

theorem deepened_zero {ty : TypeRef} (h : ty.arrayDepth ≤ TypeRef.maxArrayDepth) :
    deepened ty 0 = ty := by
  rw [deepened, Nat.add_zero, Nat.min_eq_left h]
  cases ty
  rfl

theorem deepened_arrayOf (ty : TypeRef) (depth : Nat) :
    deepened ty.arrayOf depth = deepened ty (depth + 1) := by
  rw [deepened, deepened, TypeRef.arrayOf]
  simp only [TypeRef.mk.injEq, true_and]
  omega

theorem deepened_flat (q : List String) (n : String) (args : List TypeRef) (depth : Nat) :
    deepened ⟨q, n, args, 0⟩ depth = ⟨q, n, args, min depth TypeRef.maxArrayDepth⟩ := by
  rw [deepened, Nat.zero_add]

theorem rule_pathFrom (first : String) : rule (pathFrom first) = (do
    match ← Rule.eat .dot with
    | none => return ([], first)
    | some _ =>
      let segment ← rule (expect .pathSegment .ident)
      let path ← rule (pathFrom segment.text)
      return (first :: path.1, path.2)) := by
  funext tokens
  rw [rule_apply, pathFrom, eat_bind]
  cases eat .dot tokens with
  | none => rfl
  | some dot => exact forget_bind rfl fun _ ↦ forget_bind rfl fun _ ↦ rfl

/-- A path is one segment or a segment, a dot and a path again. -/
theorem rule_path (wanted : Wanted) : rule (path wanted) = (do
    let first ← rule (expect wanted .ident)
    match ← Rule.eat .dot with
    | none => return ([], first.text)
    | some _ =>
      let path ← rule (path .pathSegment)
      return (first.text :: path.1, path.2)) := by
  have hpath (w : Wanted) : rule (path w) = (do
      let first ← rule (expect w .ident)
      rule (pathFrom first.text)) := by
    funext tokens
    exact forget_bind rfl fun _ ↦ forget_rebound ..
  simp only [hpath, bind_assoc]
  congr 1
  funext first
  rw [rule_pathFrom]

theorem rule_dimensions (ty : TypeRef) : rule (dimensions ty) = (do
    match ← Rule.eat .lBracket with
    | none => return ty
    | some _ =>
      let _ ← rule (expect (.token .rBracket) .rBracket)
      rule (dimensions ty.arrayOf)) := by
  funext tokens
  rw [rule_apply, dimensions, eat_bind]
  cases eat .lBracket tokens with
  | none => rfl
  | some bracket => exact forget_bind rfl fun _ ↦ forget_rebound ..

theorem rule_type : rule type = (do
    let path ← rule (path .type)
    match ← Rule.eat .lAngle with
    | none => rule (dimensions ⟨path.1, path.2, [], 0⟩)
    | some _ =>
      let args ← rule typeArgs
      let _ ← rule (expect (.token .rAngle) .rAngle)
      rule (dimensions ⟨path.1, path.2, args, 0⟩)) := by
  funext tokens
  rw [rule_apply, type]
  refine forget_bind rfl fun path ↦ ?_
  dsimp only
  rw [eat_bind]
  cases eat .lAngle path.left with
  | none => exact forget_rebound ..
  | some angle => exact forget_bind rfl fun _ ↦ forget_bind rfl fun _ ↦ forget_rebound ..

theorem rule_typeArgs : rule typeArgs = (do
    let first ← rule type
    match ← Rule.eat .comma with
    | none => return [first]
    | some _ =>
      let more ← rule typeArgs
      return first :: more) := by
  funext tokens
  rw [rule_apply, typeArgs]
  refine forget_bind rfl fun first ↦ ?_
  dsimp only
  rw [eat_bind]
  cases eat .comma first.left with
  | none => rfl
  | some comma => exact forget_bind rfl fun _ ↦ rfl

/-! ## Members -/

theorem rule_annotations : rule annotations = (do
    match ← Rule.eat .at with
    | none => return []
    | some _ =>
      let name ← rule (path .annotationName)
      let more ← rule annotations
      return name.2 :: more) := by
  funext tokens
  rw [rule_apply, annotations, eat_bind]
  cases eat .at tokens with
  | none => rfl
  | some mark => exact forget_bind rfl fun _ ↦ forget_bind rfl fun _ ↦ rfl

/-- Whether the modifier of this kind is said already. -/
def hasSaid (said : Modifiers) : TokenKind → Bool
  | .kwFinal => said.isFinal
  | .kwStatic => said.isStatic
  | _ => false

/-- The modifiers with that of this kind. -/
def adding (said : Modifiers) : TokenKind → Modifiers
  | .kwFinal => { said with isFinal := true }
  | .kwStatic => { said with isStatic := true }
  | _ => said

theorem rule_modifiers_of_stops {tokens : List Token} (said : Modifiers)
    (h : Stops [.kwFinal, .kwStatic] tokens) :
    rule (modifiers said) tokens = .ok (said, tokens) := by
  rw [rule_apply]
  cases tokens with
  | nil => rw [modifiers]; rfl
  | cons t left =>
    simp only [stops_cons, List.mem_cons, List.not_mem_nil, or_false, not_or] at h
    rw [modifiers]
    split
    · exact absurd ‹_› h.1
    · exact absurd ‹_› h.2
    · rfl

theorem rule_modifiers_adding {t : Token} {said : Modifiers} (ht : t.kind.isModifier = true)
    (hsaid : hasSaid said t.kind = false) (left : List Token) :
    rule (modifiers said) (t :: left) = rule (modifiers (adding said t.kind)) left := by
  rw [rule_apply, modifiers]
  cases hkind : t.kind <;> simp only [hkind, TokenKind.isModifier, Bool.false_eq_true] at ht
  case kwFinal =>
    simp only [hkind, hasSaid] at hsaid
    simp only [hsaid]
    exact forget_rebound ..
  case kwStatic =>
    simp only [hkind, hasSaid] at hsaid
    simp only [hsaid]
    exact forget_rebound ..

theorem rule_modifiers_repeated {t : Token} {said : Modifiers} (ht : t.kind.isModifier = true)
    (hsaid : hasSaid said t.kind = true) (left : List Token) :
    rule (modifiers said) (t :: left) = .error (.repeatedModifier t (t :: left)) := by
  rw [rule_apply, modifiers]
  cases hkind : t.kind <;> simp only [hkind, TokenKind.isModifier, Bool.false_eq_true] at ht
  case kwFinal =>
    simp only [hkind, hasSaid] at hsaid
    simp only [hsaid]
    rfl
  case kwStatic =>
    simp only [hkind, hasSaid] at hsaid
    simp only [hsaid]
    rfl

theorem rule_field (source : Nat) (attributes : List String) (mods : Modifiers) :
    rule (field source attributes mods) = (do
      let name ← rule (expect .memberName .ident)
      let _ ← rule (expect (.token .colon) .colon)
      let ty ← rule type
      return asField source attributes mods (name, ty)) := by
  funext tokens
  exact forget_bind rfl fun _ ↦ forget_bind rfl fun _ ↦ forget_bind rfl fun _ ↦ rfl

theorem rule_parameters : rule parameters = (do
    let _ ← rule (expect .parameterName .ident)
    let _ ← rule (expect (.token .colon) .colon)
    let _ ← rule type
    match ← Rule.eat .comma with
    | some _ => rule parameters
    | none =>
      let _ ← rule (expect (.token .rParen) .rParen)
      return ()) := by
  funext tokens
  rw [rule_apply, parameters]
  refine forget_bind rfl fun name ↦ forget_bind rfl fun colon ↦ forget_bind rfl fun ty ↦ ?_
  dsimp only
  rw [eat_bind]
  cases eat .comma ty.left with
  | none => exact forget_bind rfl fun _ ↦ rfl
  | some comma => exact forget_rebound ..

/-- A return type, if there is one. Nothing of it is kept. -/
def returnType : Rule Unit := do
  match ← Rule.eat .colon with
  | none => return ()
  | some _ =>
    let _ ← rule type
    return ()

theorem rule_method (mods : Modifiers) : rule (method mods) = (do
    let _ ← rule (expect (.token .kwFn) .kwFn)
    let name ← rule (expect .memberName .ident)
    let _ ← rule (expect (.token .lParen) .lParen)
    match ← Rule.eat .rParen with
    | some _ =>
      returnType
      return ⟨name.text, mods.isStatic⟩
    | none =>
      rule parameters
      returnType
      return ⟨name.text, mods.isStatic⟩) := by
  funext tokens
  refine forget_bind rfl fun word ↦ forget_bind rfl fun name ↦ forget_bind rfl fun paren ↦ ?_
  dsimp only
  rw [eat_bind]
  cases eat .rParen paren.left with
  | some close =>
    simp only [pure_bind, returnType, bind_assoc, eat_bind]
    cases eat .colon close.left with
    | none => rfl
    | some colon => exact forget_bind rfl fun _ ↦ rfl
  | none =>
    refine forget_bind rfl fun close ↦ ?_
    simp only [returnType, bind_assoc, eat_bind]
    cases eat .colon close.left with
    | none => rfl
    | some colon => exact forget_bind rfl fun _ ↦ rfl

theorem rule_fieldOrMethod_fn {t : Token} (h : t.kind = .kwFn) (source : Nat)
    (attributes : List String) (mods : Modifiers) (left : List Token) :
    rule (fieldOrMethod source attributes mods) (t :: left)
      = (do return .method (← rule (method mods)) : Rule Member) (t :: left) := by
  rw [rule_apply, fieldOrMethod]
  simp only [h]
  exact forget_bind rfl fun _ ↦ rfl

theorem rule_fieldOrMethod_ident {t : Token} (h : t.kind = .ident) (source : Nat)
    (attributes : List String) (mods : Modifiers) (left : List Token) :
    rule (fieldOrMethod source attributes mods) (t :: left)
      = (do return .field (← rule (field source attributes mods)) : Rule Member) (t :: left) := by
  rw [rule_apply, fieldOrMethod]
  simp only [h]
  exact forget_bind rfl fun _ ↦ rfl

theorem rule_fieldOrMethod_of_stops {tokens : List Token} (h : Stops [.kwFn, .ident] tokens)
    (source : Nat) (attributes : List String) (mods : Modifiers) :
    rule (fieldOrMethod source attributes mods) tokens
      = .error (.unexpected .memberName tokens) := by
  rw [rule_apply]
  cases tokens with
  | nil => rfl
  | cons t left =>
    simp only [stops_cons, List.mem_cons, List.not_mem_nil, or_false, not_or] at h
    rw [fieldOrMethod]
    split
    · exact absurd ‹_› h.1
    · exact absurd ‹_› h.2
    · rfl

theorem rule_member (source : Nat) : rule (member source) = (do
    let names ← rule annotations
    let mods ← rule (modifiers {})
    let member ← rule (fieldOrMethod source names mods)
    match ← Rule.eat .semicolon with
    | none => return member
    | some _ => return member) := by
  funext tokens
  refine forget_bind rfl fun names ↦ forget_bind rfl fun mods ↦ forget_bind rfl fun member ↦ ?_
  dsimp only
  rw [eat_bind]
  cases eat .semicolon member.left with
  | none => rfl
  | some semicolon => rfl

/-! ## Declarations -/

theorem rule_body_nil (source : Nat) (name brace : Token) :
    rule (body source name brace) [] = .error (.unclosedBody name brace) := by
  rw [rule_apply, body, eat]
  rfl

theorem rule_body_close {t : Token} (h : t.kind = .rBrace) (source : Nat) (name brace : Token)
    (left : List Token) : rule (body source name brace) (t :: left) = .ok ([], left) := by
  rw [rule_apply, body, eat, if_pos h]
  rfl

theorem rule_body_member {tokens : List Token} (hne : tokens ≠ []) (h : Stops [.rBrace] tokens)
    (source : Nat) (name brace : Token) :
    rule (body source name brace) tokens
      = (do
          let first ← rule (member source)
          let more ← rule (body source name brace)
          return first :: more : Rule (List Member)) tokens := by
  obtain ⟨t, left, rfl⟩ := List.exists_cons_of_ne_nil hne
  rw [rule_apply, body, eat, if_neg (by simpa using h)]
  exact forget_bind rfl fun _ ↦ forget_bind rfl fun _ ↦ rfl

theorem rule_declKind {t : Token} {kind : DeclKind} (h : IsDeclKind t kind) (left : List Token) :
    rule declKind (t :: left) = .ok (kind, left) := by
  rw [rule_apply, declKind]
  cases h with
  | cls h => rw [h]; rfl
  | interface h => rw [h]; rfl

theorem rule_declKind_of_stops {tokens : List Token}
    (h : Stops [.kwClass, .kwInterface] tokens) :
    rule declKind tokens = .error (.unexpected .declaration tokens) := by
  rw [rule_apply]
  cases tokens with
  | nil => rfl
  | cons t left =>
    simp only [stops_cons, List.mem_cons, List.not_mem_nil, or_false, not_or] at h
    rw [declKind]
    split
    · exact absurd ‹_› h.1
    · exact absurd ‹_› h.2
    · rfl

theorem rule_declaration (source : Nat) : rule (declaration source) = (do
    let names ← rule annotations
    let kind ← rule declKind
    let name ← rule (expect .typeName .ident)
    let brace ← rule (expect (.token .lBrace) .lBrace)
    let members ← rule (body source name brace)
    return declared source kind name names members) := by
  funext tokens
  exact forget_bind rfl fun _ ↦ forget_bind rfl fun _ ↦ forget_bind rfl fun _ ↦
    forget_bind rfl fun _ ↦ forget_bind rfl fun _ ↦ rfl

/-! ## Files -/

theorem declarations_nil (source : Nat) : declarations source [] = ([], none) := by
  rw [declarations]
  rfl

theorem declarations_of_ok {source : Nat} {tokens left : List Token} {decl : Declaration Span}
    (hne : tokens ≠ []) (h : rule (declaration source) tokens = .ok (decl, left)) :
    declarations source tokens
      = (decl :: (declarations source left).1, (declarations source left).2) := by
  rw [rule_apply] at h
  rw [declarations, if_neg (by simpa using hne)]
  cases hdecl : declaration source tokens with
  | error φ => rw [hdecl] at h; cases h
  | ok first =>
    rw [hdecl] at h
    cases h
    rfl

theorem declarations_of_error {source : Nat} {tokens : List Token} {φ : Fault}
    (hne : tokens ≠ []) (h : rule (declaration source) tokens = .error φ) :
    declarations source tokens = ([], some φ) := by
  rw [rule_apply] at h
  rw [declarations, if_neg (by simpa using hne)]
  cases hdecl : declaration source tokens with
  | error φ' => rw [hdecl] at h; cases h; rfl
  | ok first => rw [hdecl] at h; cases h

end Grammar

end FieldPaths
