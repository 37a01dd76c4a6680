import Mathlib.Logic.Function.Iterate
import FieldPaths.Proofs.Grammar.Reading

/-!
# Reading makes progress

Where a rule stands is told by the tokens that are left: they are always the last of those it
started with. No rule goes back, not at a fault either, and the rules that read a part of a schema
at all leave fewer tokens (`Rule.GoesOn`, `Rule.Advances`).

## When a repetition is over

That the rules are functions says of each that it has a value, and nothing about how often its
repetitions go round. A repetition is the fixed point of a round, `round next`, where `next` stands
for the rounds that follow. Unrolled `n` times it is `round^[n] next`, and it is over by then
exactly if the outcome is the same for every `next` (`Ends`): what stands there may fault or give
tokens back, so a repetition that got that far would show it.

The invariant is that a round looks at the rounds that follow only where fewer tokens are left
(`Ends.of_shorter`), and for each repetition progress gives it. The recursion of types is one of
them. A type contains other types only in the arguments behind its path, so it is lists of arguments
that a round reads, and what follows is needed in it twice: for the arguments of an argument, and
for the arguments after a comma.
-/

namespace FieldPaths

namespace Grammar

variable {α β δ : Type}

/-! ## Progress -/

/-- What the rule leaves are the last of the tokens, and so are the tokens left at a fault. -/
structure Rule.GoesOn (x : Rule α) : Prop where
  ok_suffix : ∀ {tokens v left}, x tokens = .ok (v, left) → left <:+ tokens
  error_suffix : ∀ {tokens φ}, x tokens = .error φ → φ.left <:+ tokens

/-- The rule goes on and reads something. -/
structure Rule.Advances (x : Rule α) : Prop extends x.GoesOn where
  length_lt : ∀ {tokens v left}, x tokens = .ok (v, left) → left.length < tokens.length

theorem Rule.Follows.goesOn {x : Rule α} {S : Symbol α} {F : Blame}
    (h : ∀ tokens, x.Follows S F tokens) : x.GoesOn where
  ok_suffix {tokens _ _} hx := by
    obtain ⟨used, rfl, -⟩ := (h tokens).derives hx
    exact List.suffix_append ..
  error_suffix {tokens _} hx := by
    obtain ⟨used, hused, -⟩ := (h tokens).completes hx
    exact ⟨used, hused.symm⟩

/-- That something was read, the rules show of each branch they take (`Parsed.lt_bound`). -/
theorem Rule.Follows.advances {f : (tokens : List Token) → Reads α tokens} {S : Symbol α}
    {F : Blame} (h : ∀ tokens, (rule f).Follows S F tokens) : (rule f).Advances where
  toGoesOn := Follows.goesOn h
  length_lt := length_lt_of_rule

theorem expect_advances (wanted : Wanted) (kind : TokenKind) :
    (rule (expect wanted kind)).Advances := by
  have h (tokens : List Token) : (rule (expect wanted kind)).Follows
      (fun ts t ↦ ts = [t] ∧ t.kind = kind) plain tokens := by
    rw [← bind_pure (rule (expect wanted kind))]
    exact .expect ⟨[sample kind], sample kind, rfl, rfl⟩ fun t left _ ht ↦ .pure ⟨rfl, ht⟩
  exact Rule.Follows.advances h

theorem eat_goesOn (kind : TokenKind) : (Rule.eat kind).GoesOn := by
  have h (tokens : List Token) : (Rule.eat kind).Follows
      (fun ts t ↦ ts = t.toList) plain tokens := by
    rw [← bind_pure (Rule.eat kind)]
    exact .eat (fun t left _ _ ↦ .pure rfl) fun _ ↦ .pure rfl
  exact Rule.Follows.goesOn h

/-- Where it is only asked that a rule goes on, anything may be what it reads. -/
def anything : Symbol α := fun _ _ ↦ True

theorem pathFrom_follows (first : String) (tokens : List Token) :
    (rule (pathFrom first)).Follows anything plain tokens := by
  rw [rule_pathFrom]
  refine .eat (fun dot left hleft _ ↦ ?_) fun _ ↦ .pure trivial
  refine .expect ⟨[], ([], first), trivial⟩ fun segment left' hleft' _ ↦ ?_
  exact (pathFrom_follows segment.text left').map (plain_le _) fun _ _ _ ↦ trivial
  termination_by tokens.length
  decreasing_by
    simp only [hleft, hleft', List.length_cons]
    omega

theorem dimensions_follows_anything (ty : TypeRef) (tokens : List Token) :
    (rule (dimensions ty)).Follows anything plain tokens := by
  rw [rule_dimensions]
  refine .eat (fun l left hleft _ ↦ ?_) fun _ ↦ .pure trivial
  refine .expect ⟨[], ty, trivial⟩ fun r left' hleft' _ ↦ ?_
  exact (dimensions_follows_anything ty.arrayOf left').mono (plain_le _) fun _ _ _ ↦ trivial
  termination_by tokens.length
  decreasing_by
    simp only [hleft, hleft', List.length_cons]
    omega

/-- Whatever modifiers are said already, some tokens said them. -/
theorem exists_isModifiers (said : Modifiers) : ∃ done, IsModifiers done said := by
  obtain ⟨isFinal, isStatic⟩ := said
  refine ⟨(if isFinal then [sample .kwFinal] else []) ++
    if isStatic then [sample .kwStatic] else [], ?_, ?_, ?_, ?_⟩
  all_goals cases isFinal <;> cases isStatic <;> decide

theorem modifiers_goesOn (said : Modifiers) : (rule (modifiers said)).GoesOn := by
  obtain ⟨done, hdone⟩ := exists_isModifiers said
  exact Rule.Follows.goesOn (modifiers_follows hdone)

/-! ## Repetitions -/

/-- The repetition `x`, of which `round next` is one round and then `next`, comes to an end. -/
structure Ends (round : (List Token → δ) → List Token → δ) (x : List Token → δ) : Prop where
  eq_round : x = round x
  /-- After one round more than there are tokens, what would follow does not matter. -/
  unrolled : ∀ {n : Nat} {tokens : List Token}, tokens.length < n →
    ∀ next, round^[n] next tokens = x tokens

/-- A repetition ends whose rounds look at those that follow only where fewer tokens are left. -/
theorem Ends.of_shorter {round : (List Token → δ) → List Token → δ} {x : List Token → δ}
    (h : ∀ y tokens, (∀ left, left.length < tokens.length → y left = x left) →
      round y tokens = x tokens) : Ends round x where
  eq_round := funext fun tokens ↦ (h x tokens fun _ _ ↦ rfl).symm
  unrolled {n tokens} hn next := by
    induction n generalizing tokens with
    | zero => exact absurd hn (Nat.not_lt_zero _)
    | succ n ih =>
      rw [Function.iterate_succ_apply']
      exact h _ tokens fun left hleft ↦ ih (by omega)

/-- Two ways to go on that agree after what is read. -/
theorem bind_congr_of_ok {x : Rule α} {g g' : α → Rule β} {tokens : List Token}
    (h : ∀ v left, x tokens = .ok (v, left) → g v left = g' v left) :
    (x >>= g) tokens = (x >>= g') tokens := by
  cases hx : x tokens with
  | error φ => rw [bind_error hx, bind_error hx]
  | ok p => rw [bind_ok hx, bind_ok hx, h p.1 p.2 hx]

theorem eat_congr {kind : TokenKind} {g g' : Option Token → Rule α} {tokens : List Token}
    (hsome : ∀ t left, tokens = t :: left → g (some t) left = g' (some t) left)
    (hnone : g none tokens = g' none tokens) :
    (Rule.eat kind >>= g) tokens = (Rule.eat kind >>= g') tokens := by
  by_cases hstops : Stops [kind] tokens
  · rw [eat_bind_of_stops hstops, eat_bind_of_stops hstops, hnone]
  · obtain ⟨t, left, rfl, hkind⟩ := exists_cons_of_not_stops hstops
    rw [List.mem_singleton] at hkind
    rw [eat_bind_of_kind hkind, eat_bind_of_kind hkind, hsome t left rfl]

/-- What a rule comes to. -/
abbrev Outcome (α : Type) := Except Fault (α × List Token)

/-! ### Paths and types -/

/-- One more segment of a path. -/
def segmentRound (next : List Token → String → Outcome (List String × String))
    (tokens : List Token) (first : String) : Outcome (List String × String) :=
  (do
    match ← Rule.eat .dot with
    | none => return ([], first)
    | some _ =>
      let segment ← rule (expect .pathSegment .ident)
      let path ← (next · segment.text)
      return (first :: path.1, path.2) : Rule (List String × String)) tokens

theorem segments_end : Ends segmentRound fun tokens first ↦ rule (pathFrom first) tokens := by
  refine .of_shorter fun y tokens hy ↦ funext fun first ↦ ?_
  rw [rule_pathFrom]
  refine eat_congr (fun dot left hleft ↦ ?_) rfl
  refine bind_congr_of_ok fun segment left' hsegment ↦ ?_
  have hlt : left'.length < tokens.length :=
    hleft ▸ Nat.lt_succ_of_lt (length_lt_of_rule hsegment)
  exact bind_congr (congrFun (hy left' hlt) segment.text) _

/-- One more dimension of an array. -/
def dimensionRound (next : List Token → TypeRef → Outcome TypeRef) (tokens : List Token)
    (ty : TypeRef) : Outcome TypeRef :=
  (do
    match ← Rule.eat .lBracket with
    | none => return ty
    | some _ =>
      let _ ← rule (expect (.token .rBracket) .rBracket)
      (next · ty.arrayOf) : Rule TypeRef) tokens

theorem dimensions_end : Ends dimensionRound fun tokens ty ↦ rule (dimensions ty) tokens := by
  refine .of_shorter fun y tokens hy ↦ funext fun ty ↦ ?_
  rw [rule_dimensions]
  refine eat_congr (fun l left hleft ↦ ?_) rfl
  refine bind_congr_of_ok fun r left' hr ↦ ?_
  have hlt : left'.length < tokens.length := hleft ▸ Nat.lt_succ_of_lt (length_lt_of_rule hr)
  exact congrFun (hy left' hlt) ty.arrayOf

/-- A type, given how to read its arguments. -/
def typeWith (args : Rule (List TypeRef)) : Rule TypeRef := do
  let path ← rule (path .type)
  match ← Rule.eat .lAngle with
  | none => rule (dimensions ⟨path.1, path.2, [], 0⟩)
  | some _ =>
    let args ← args
    let _ ← rule (expect (.token .rAngle) .rAngle)
    rule (dimensions ⟨path.1, path.2, args, 0⟩)

/-- One more argument. -/
def argumentRound (next : Rule (List TypeRef)) : Rule (List TypeRef) := do
  let first ← typeWith next
  match ← Rule.eat .comma with
  | none => return [first]
  | some _ =>
    let more ← next
    return first :: more

/-- A type reads its arguments behind its path and a bracket. -/
theorem typeWith_congr {args : Rule (List TypeRef)} {tokens : List Token}
    (hargs : ∀ left, left.length < tokens.length → args left = rule typeArgs left) :
    typeWith args tokens = rule type tokens := by
  rw [rule_type]
  refine bind_congr_of_ok fun path left hpath ↦ ?_
  refine eat_congr (fun langle left' hleft ↦ ?_) rfl
  have hlt := length_lt_of_rule hpath
  rw [hleft] at hlt
  exact bind_congr (hargs left' (Nat.lt_of_succ_lt hlt)) _

theorem typeArgs_end : Ends argumentRound (rule typeArgs) := by
  refine .of_shorter fun y tokens hy ↦ ?_
  rw [rule_typeArgs]
  refine (bind_congr (typeWith_congr hy) _).trans (bind_congr_of_ok fun ty left hty ↦ ?_)
  refine eat_congr (fun comma left' hleft ↦ ?_) rfl
  have hlt := length_lt_of_rule hty
  rw [hleft] at hlt
  exact bind_congr (hy left' (Nat.lt_of_succ_lt hlt)) _

/-! ### Members -/

/-- One more annotation. -/
def annotationRound (next : Rule (List String)) : Rule (List String) := do
  match ← Rule.eat .at with
  | none => return []
  | some _ =>
    let name ← rule (path .annotationName)
    let more ← next
    return name.2 :: more

theorem annotations_end : Ends annotationRound (rule annotations) := by
  refine .of_shorter fun y tokens hy ↦ ?_
  rw [rule_annotations]
  refine eat_congr (fun mark left hleft ↦ ?_) rfl
  refine bind_congr_of_ok fun name left' hname ↦ ?_
  have hlt : left'.length < tokens.length := hleft ▸ Nat.lt_succ_of_lt (length_lt_of_rule hname)
  exact bind_congr (hy left' hlt) _

/-- One more modifier. -/
def modifierRound (next : List Token → Modifiers → Outcome Modifiers) :
    List Token → Modifiers → Outcome Modifiers
  | [], said => .ok (said, [])
  | t :: left, said =>
    if t.kind.isModifier then
      if hasSaid said t.kind then .error (.repeatedModifier t (t :: left))
      else next left (adding said t.kind)
    else .ok (said, t :: left)

theorem modifiers_end : Ends modifierRound fun tokens said ↦ rule (modifiers said) tokens := by
  refine .of_shorter fun y tokens hy ↦ funext fun said ↦ ?_
  cases tokens with
  | nil => exact (rule_modifiers_of_stops said (stops_nil _)).symm
  | cons t left =>
    rw [modifierRound]
    split
    · rename_i ht
      split
      · rename_i hsaid
        exact (rule_modifiers_repeated ht hsaid left).symm
      · rename_i hsaid
        rw [rule_modifiers_adding ht (Bool.eq_false_iff.mpr hsaid)]
        exact congrFun (hy left (Nat.lt_succ_self _)) (adding said t.kind)
    · rename_i ht
      refine (rule_modifiers_of_stops said (stops_cons.mpr fun hkind ↦ ht ?_)).symm
      revert hkind
      cases t.kind <;> decide

/-- One more parameter, or the parenthesis that closes them. -/
def parameterRound (next : Rule Unit) : Rule Unit := do
  let _ ← rule (expect .parameterName .ident)
  let _ ← rule (expect (.token .colon) .colon)
  let _ ← rule type
  match ← Rule.eat .comma with
  | some _ => next
  | none =>
    let _ ← rule (expect (.token .rParen) .rParen)
    return ()

theorem parameters_end : Ends parameterRound (rule parameters) := by
  refine .of_shorter fun y tokens hy ↦ ?_
  rw [rule_parameters]
  refine bind_congr_of_ok fun name left hname ↦ ?_
  refine bind_congr_of_ok fun colon left' hcolon ↦ ?_
  refine bind_congr_of_ok fun ty left'' hty ↦ ?_
  refine eat_congr (fun comma left₃ hleft ↦ ?_) rfl
  have := length_lt_of_rule hname
  have := length_lt_of_rule hcolon
  have := length_lt_of_rule hty
  rw [hleft, List.length_cons] at this
  exact hy left₃ (by omega)

/-! ### Declarations -/

variable (source : Nat)

/-- One more member of a body, or the brace that closes it. -/
def memberRound (name brace : Token) (next : Rule (List Member)) : Rule (List Member) := do
  match ← Rule.eat .rBrace with
  | some _ => return []
  | none =>
    fun tokens ↦
      if tokens = [] then .error (.unclosedBody name brace)
      else
        (do
          let first ← rule (member source)
          let more ← next
          return first :: more : Rule (List Member)) tokens

theorem body_end (name brace : Token) :
    Ends (memberRound source name brace) (rule (body source name brace)) := by
  refine .of_shorter fun y tokens hy ↦ ?_
  rw [memberRound]
  by_cases hstops : Stops [.rBrace] tokens
  · rw [eat_bind_of_stops hstops]
    by_cases hne : tokens = []
    · rw [hne, rule_body_nil]
      rfl
    · rw [rule_body_member hne hstops]
      refine (if_neg hne).trans (bind_congr_of_ok fun first left hfirst ↦ ?_)
      exact bind_congr (hy left (length_lt_of_rule hfirst)) _
  · obtain ⟨t, left, rfl, hkind⟩ := exists_cons_of_not_stops hstops
    rw [List.mem_singleton] at hkind
    rw [eat_bind_of_kind hkind, rule_body_close hkind]
    rfl

/-- One more declaration, as long as there are tokens. A fault is the end. -/
def declarationRound (next : List Token → List (Declaration Span) × Option Fault)
    (tokens : List Token) : List (Declaration Span) × Option Fault :=
  if tokens = [] then ([], none)
  else
    match rule (declaration source) tokens with
    | .error φ => ([], some φ)
    | .ok (first, left) => (first :: (next left).1, (next left).2)

theorem declarations_end : Ends (declarationRound source) (declarations source) := by
  refine .of_shorter fun y tokens hy ↦ ?_
  rw [declarationRound]
  by_cases hne : tokens = []
  · rw [if_pos hne, hne, declarations_nil]
  rw [if_neg hne]
  cases h : rule (declaration source) tokens with
  | error φ => exact (declarations_of_error hne h).symm
  | ok p => rw [declarations_of_ok hne h, ← hy p.2 (length_lt_of_rule h)]

/-! ## Where a file ends -/

variable {source}

/-- The declarations are read one after the other, from the tokens up to those that are left. -/
inductive ReadUpTo (source : Nat) : List Token → List (Declaration Span) → List Token → Prop
  | nil (tokens : List Token) : ReadUpTo source tokens [] tokens
  | cons {tokens mid left : List Token} {decl : Declaration Span} {decls : List (Declaration Span)}
      (hdecl : rule (declaration source) tokens = .ok (decl, mid))
      (hmore : ReadUpTo source mid decls left) : ReadUpTo source tokens (decl :: decls) left

theorem declaration_advances (source : Nat) : (rule (declaration source)).Advances :=
  Rule.Follows.advances (declaration_follows source)

theorem ReadUpTo.isSuffix {tokens left : List Token} {decls : List (Declaration Span)}
    (h : ReadUpTo source tokens decls left) : left <:+ tokens := by
  induction h with
  | nil tokens => exact List.suffix_rfl
  | cons hdecl _ ih => exact ih.trans ((declaration_advances source).ok_suffix hdecl)

/-- Reading a file stops where no token is left or where a declaration has a fault. -/
theorem exists_readUpTo (source : Nat) (tokens : List Token) :
    ∃ left, ReadUpTo source tokens (declarations source tokens).1 left ∧
      (left = [] ∧ (declarations source tokens).2 = none ∨
        left ≠ [] ∧ ∃ φ, rule (declaration source) left = .error φ ∧
          (declarations source tokens).2 = some φ) := by
  by_cases hne : tokens = []
  · rw [hne, declarations_nil]
    exact ⟨[], .nil [], .inl ⟨rfl, rfl⟩⟩
  cases h : rule (declaration source) tokens with
  | error φ =>
    rw [declarations_of_error hne h]
    exact ⟨tokens, .nil tokens, .inr ⟨hne, φ, h, rfl⟩⟩
  | ok p =>
    obtain ⟨left, hread, hstop⟩ := exists_readUpTo source p.2
    rw [declarations_of_ok hne h]
    exact ⟨left, .cons h hread, hstop⟩
  termination_by tokens.length
  decreasing_by exact length_lt_of_rule h

/-! ## All of it -/

/-- How the rules get on with the tokens of a source. -/
structure MakesProgress (source : Nat) : Prop where
  path_advances : ∀ wanted, (rule (path wanted)).Advances
  type_advances : (rule type).Advances
  typeArgs_advances : (rule typeArgs).Advances
  field_advances : ∀ names mods, (rule (field source names mods)).Advances
  parameters_advances : (rule parameters).Advances
  method_advances : ∀ mods, (rule (method mods)).Advances
  fieldOrMethod_advances : ∀ names mods, (rule (fieldOrMethod source names mods)).Advances
  member_advances : (rule (member source)).Advances
  body_advances : ∀ name brace, (rule (body source name brace)).Advances
  declKind_advances : (rule declKind).Advances
  declaration_advances : (rule (declaration source)).Advances
  expect_advances : ∀ wanted kind, (rule (expect wanted kind)).Advances
  /-- The rules that may read nothing go on as well. -/
  eat_goesOn : ∀ kind, (Rule.eat kind).GoesOn
  annotations_goesOn : (rule annotations).GoesOn
  modifiers_goesOn : ∀ said, (rule (modifiers said)).GoesOn
  pathFrom_goesOn : ∀ first, (rule (pathFrom first)).GoesOn
  dimensions_goesOn : ∀ ty, (rule (dimensions ty)).GoesOn
  segments_end : Ends segmentRound fun tokens first ↦ rule (pathFrom first) tokens
  dimensions_end : Ends dimensionRound fun tokens ty ↦ rule (dimensions ty) tokens
  typeArgs_end : Ends argumentRound (rule typeArgs)
  /-- Types are not nested more often than there are tokens. -/
  type_end : ∀ {n : Nat} {tokens : List Token}, tokens.length < n → ∀ next,
    typeWith (argumentRound^[n] next) tokens = rule type tokens
  annotations_end : Ends annotationRound (rule annotations)
  modifiers_end : Ends modifierRound fun tokens said ↦ rule (modifiers said) tokens
  parameters_end : Ends parameterRound (rule parameters)
  body_end : ∀ name brace, Ends (memberRound source name brace) (rule (body source name brace))
  declarations_end : Ends (declarationRound source) (declarations source)
  /-- Without a fault every token is read, and with one the declaration at fault is not. -/
  readUpTo : ∀ tokens, ∃ left, ReadUpTo source tokens (declarations source tokens).1 left ∧
    left <:+ tokens ∧ ((declarations source tokens).2 = none ↔ left = []) ∧
    ∀ φ, (declarations source tokens).2 = some φ → φ.left <:+ left

/-- **Reading makes progress.** -/
theorem rules_makeProgress (source : Nat) : MakesProgress source where
  path_advances wanted := Rule.Follows.advances (path_follows wanted)
  type_advances := Rule.Follows.advances type_follows
  typeArgs_advances := Rule.Follows.advances typeArgs_follows
  field_advances names mods := Rule.Follows.advances (field_follows source names mods)
  parameters_advances := Rule.Follows.advances parameters_follows
  method_advances mods := Rule.Follows.advances (method_follows mods)
  fieldOrMethod_advances names mods :=
    Rule.Follows.advances (fieldOrMethod_follows source names mods)
  member_advances := Rule.Follows.advances (member_follows source)
  body_advances name brace := Rule.Follows.advances (body_follows source name brace)
  declKind_advances := Rule.Follows.advances declKind_follows
  declaration_advances := declaration_advances source
  expect_advances := expect_advances
  eat_goesOn := eat_goesOn
  annotations_goesOn := Rule.Follows.goesOn annotations_follows
  modifiers_goesOn := modifiers_goesOn
  pathFrom_goesOn first := Rule.Follows.goesOn (pathFrom_follows first)
  dimensions_goesOn ty := Rule.Follows.goesOn (dimensions_follows_anything ty)
  segments_end := segments_end
  dimensions_end := dimensions_end
  typeArgs_end := typeArgs_end
  type_end hn next := typeWith_congr fun left hleft ↦
    typeArgs_end.unrolled (Nat.lt_trans hleft hn) next
  annotations_end := annotations_end
  modifiers_end := modifiers_end
  parameters_end := parameters_end
  body_end := body_end source
  declarations_end := declarations_end source
  readUpTo tokens := by
    obtain ⟨left, hread, hstop⟩ := exists_readUpTo source tokens
    rcases hstop with ⟨hleft, hnone⟩ | ⟨hne, φ, hφ, hsome⟩
    · refine ⟨left, hread, hread.isSuffix, iff_of_true hnone hleft, fun φ hφ ↦ ?_⟩
      exact absurd (hnone.symm.trans hφ) (Option.some_ne_none φ).symm
    · refine ⟨left, hread, hread.isSuffix, iff_of_false ?_ hne, fun φ' hφ' ↦ ?_⟩
      · rw [hsome]
        exact Option.some_ne_none φ
      · obtain rfl : φ = φ' := Option.some.inj (hsome.symm.trans hφ')
        exact (declaration_advances source).error_suffix hφ

end Grammar

end FieldPaths
