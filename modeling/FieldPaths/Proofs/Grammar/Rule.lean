import FieldPaths.Proofs.Grammar.Derivation

/-!
# Rules without their bounds

The rules of the grammar carry in their types that fewer tokens are left. That is what they end
by, and nothing else needs it: with the bound forgotten, a rule is a program over the tokens that
are left, with faults, and its steps are the steps of that program. What is proved about rules is
proved about such programs.

## Following a symbol

`Rule.Follows` says what a rule has to do with a symbol of the grammar. What it reads derives from
the symbol; what it reads before a fault can be completed; and it looks at no token beyond the
first one it leaves. The last is what makes the fault the *first* one: the tokens up to there leave
the rule no choice, whatever comes after them.

A rule goes on with what the rules before it left of a symbol, so a step of a rule is measured by
the symbol *after* the tokens read so far. With that, `Rule.Follows.bind` is all there is to say
about putting steps together.
-/

namespace FieldPaths

/-! ## Faults and the tokens they stand before -/

namespace Fault

/-- The tokens that are left at a fault. -/
def left : Fault → List Token
  | unexpected _ left => left
  | repeatedModifier _ left => left
  | unclosedBody _ _ => []

/-- The same fault before other tokens. -/
def relocate (tokens : List Token) : Fault → Fault
  | unexpected wanted _ => unexpected wanted tokens
  | repeatedModifier modifier _ => repeatedModifier modifier tokens
  | unclosedBody name brace => unclosedBody name brace

theorem relocate_relocate (φ : Fault) (tokens tokens' : List Token) :
    (φ.relocate tokens).relocate tokens' = φ.relocate tokens' := by
  cases φ <;> rfl

/-- Whether the fault is that something else was wanted. -/
def IsUnexpected (φ : Fault) : Prop := ∃ wanted left, φ = unexpected wanted left

end Fault

namespace Grammar

variable {α β : Type}

/-! ## Programs over the tokens that are left -/

/-- A rule without its bound. -/
abbrev Rule (α : Type) := StateT (List Token) (Except Fault) α

/-- What was read and the tokens that are left, without the bound. -/
def forget {bound : Nat} (parsed : Except Fault (Parsed α bound)) :
    Except Fault (α × List Token) := parsed.map fun p ↦ (p.value, p.left)

/-- A rule without its bound. -/
def rule {bound : List Token → Nat}
    (f : (tokens : List Token) → Except Fault (Parsed α (bound tokens))) : Rule α :=
  fun tokens ↦ forget (f tokens)

theorem rule_apply {bound : List Token → Nat}
    (f : (tokens : List Token) → Except Fault (Parsed α (bound tokens))) (tokens : List Token) :
    rule f tokens = forget (f tokens) := rfl

/-- A rule leaves fewer tokens, as it says. -/
theorem length_lt_of_rule {bound : List Token → Nat}
    {f : (tokens : List Token) → Except Fault (Parsed α (bound tokens))} {tokens left : List Token}
    {v : α} (h : rule f tokens = .ok (v, left)) : left.length < bound tokens := by
  rw [rule_apply] at h
  cases hf : f tokens with
  | error φ =>
    rw [hf] at h
    cases h
  | ok p =>
    rw [hf] at h
    cases h
    exact p.lt_bound

/-- Steps put together forget their bounds one by one. -/
theorem forget_bind {m n : Nat} {x : Except Fault (Parsed α m)}
    {g : Parsed α m → Except Fault (Parsed β n)} {y : Rule α} {h : α → Rule β} {tokens : List Token}
    (hx : forget x = y tokens) (hg : ∀ p, forget (g p) = h p.value p.left) :
    forget (x >>= g) = (y >>= h) tokens := by
  change _ = (y tokens >>= fun p ↦ h p.1 p.2)
  rw [← hx]
  cases x with
  | error φ => rfl
  | ok p => exact hg p

/-- A step that only changes the bound is none. -/
theorem forget_rebound {m n : Nat} (x : Except Fault (Parsed α m))
    (h : ∀ p : Parsed α m, p.left.length < n) :
    forget (x >>= fun p ↦ (pure ⟨p.value, p.left, h p⟩ : Except Fault (Parsed α n)))
      = forget x := by
  cases x with
  | error φ => rfl
  | ok p => rfl

theorem bind_ok {x : Rule α} {g : α → Rule β} {tokens left : List Token} {v : α}
    (h : x tokens = .ok (v, left)) : (x >>= g) tokens = g v left := by
  change (x tokens >>= fun p ↦ g p.1 p.2) = _
  rw [h]
  rfl

theorem bind_error {x : Rule α} {g : α → Rule β} {tokens : List Token} {φ : Fault}
    (h : x tokens = .error φ) : (x >>= g) tokens = .error φ := by
  change (x tokens >>= fun p ↦ g p.1 p.2) = _
  rw [h]
  rfl

/-- Where two rules come to the same, so do their continuations. -/
theorem bind_congr {x y : Rule α} {tokens tokens' : List Token} (h : x tokens = y tokens')
    (g : α → Rule β) : (x >>= g) tokens = (y >>= g) tokens' := by
  change (x tokens >>= fun p ↦ g p.1 p.2) = _
  rw [h]
  rfl

/-- The first token, if it is of the given kind. -/
def Rule.eat (kind : TokenKind) : Rule (Option Token) := fun tokens ↦
  match Grammar.eat kind tokens with
  | none => .ok (none, tokens)
  | some p => .ok (some p.value, p.left)

/-- A rule that sets in after the first token. -/
def Rule.tail (x : Rule α) : Rule α := fun tokens ↦ x tokens.tail

theorem eat_bind (kind : TokenKind) (g : Option Token → Rule α) (tokens : List Token) :
    (Rule.eat kind >>= g) tokens = match eat kind tokens with
      | none => g none tokens
      | some p => g (some p.value) p.left := by
  cases h : eat kind tokens with
  | none => exact bind_ok (by rw [Rule.eat, h])
  | some p => exact bind_ok (by rw [Rule.eat, h])

/-- The tokens do not start with one of these kinds. -/
def Stops (kinds : List TokenKind) (tokens : List Token) : Prop :=
  ∀ t ∈ tokens.head?, t.kind ∉ kinds

@[simp] theorem stops_nil (kinds : List TokenKind) : Stops kinds [] := by simp [Stops]

@[simp] theorem stops_cons {kinds : List TokenKind} {t : Token} {tokens : List Token} :
    Stops kinds (t :: tokens) ↔ t.kind ∉ kinds := by simp [Stops]

theorem Stops.mono {kinds kinds' : List TokenKind} {tokens : List Token} (h : Stops kinds tokens)
    (hsub : kinds' ⊆ kinds) : Stops kinds' tokens := fun t ht hk ↦ h t ht (hsub hk)

theorem exists_cons_of_not_stops {kinds : List TokenKind} {tokens : List Token}
    (h : ¬ Stops kinds tokens) : ∃ t left, tokens = t :: left ∧ t.kind ∈ kinds := by
  cases tokens with
  | nil => exact absurd (stops_nil kinds) h
  | cons t left => exact ⟨t, left, rfl, by simpa using h⟩

theorem eat_bind_of_kind {kind : TokenKind} {t : Token} (h : t.kind = kind)
    (g : Option Token → Rule α) (left : List Token) :
    (Rule.eat kind >>= g) (t :: left) = g (some t) left := by
  rw [eat_bind, eat, if_pos h]

theorem eat_bind_of_stops {kind : TokenKind} {tokens : List Token} (h : Stops [kind] tokens)
    (g : Option Token → Rule α) : (Rule.eat kind >>= g) tokens = g none tokens := by
  rw [eat_bind]
  cases tokens with
  | nil => rw [eat]
  | cons t left => rw [eat, if_neg (by simpa using h)]

theorem expect_of_kind {wanted : Wanted} {kind : TokenKind} {t : Token} (h : t.kind = kind)
    (left : List Token) : rule (expect wanted kind) (t :: left) = .ok (t, left) := by
  rw [rule_apply, expect, eat, if_pos h]
  rfl

theorem expect_of_stops {wanted : Wanted} {kind : TokenKind} {tokens : List Token}
    (h : Stops [kind] tokens) :
    rule (expect wanted kind) tokens = .error (.unexpected wanted tokens) := by
  rw [rule_apply, expect]
  cases tokens with
  | nil => rw [eat]; rfl
  | cons t left => rw [eat, if_neg (by simpa using h)]; rfl

/-! ## Symbols -/

/-- A symbol of the grammar: the tokens it derives and what they denote. -/
abbrev Symbol (α : Type) := List Token → α → Prop

/-- What is left of a symbol after some tokens. -/
def Symbol.after (S : Symbol α) (used : List Token) : Symbol α := fun more v ↦ S (used ++ more) v

theorem Symbol.after_after (S : Symbol α) (used used' : List Token) :
    (S.after used).after used' = S.after (used ++ used') := by
  funext more v
  rw [after, after, after, List.append_assoc]

/-- What a fault after some tokens says about them, where it says more than that something else
was wanted. -/
abbrev Blame := List Token → Fault → Prop

/-- A blame in view of some tokens before. -/
def Blame.after (F : Blame) (used : List Token) : Blame := fun more φ ↦ F (used ++ more) φ

theorem Blame.after_after (F : Blame) (used used' : List Token) :
    Blame.after (Blame.after F used) used' = Blame.after F (used ++ used') := by
  funext more φ
  rw [after, after, after, List.append_assoc]

/-- The blame of rules whose faults all say that something else was wanted. -/
def plain : Blame := fun _ _ ↦ False

theorem plain_le (F : Blame) (used : List Token) (φ : Fault) (h : plain used φ) : F used φ := h.elim

/-- How a rule reads a symbol at some tokens. -/
structure Rule.Follows (x : Rule α) (S : Symbol α) (F : Blame) (tokens : List Token) : Prop where
  /-- What is read derives from the symbol. -/
  derives : ∀ {v left}, x tokens = .ok (v, left) → ∃ used, tokens = used ++ left ∧ S used v
  /-- What is read before a fault can be completed. -/
  completes : ∀ {φ}, x tokens = .error φ → ∃ used, tokens = used ++ φ.left ∧
    (∃ more v, S (used ++ more) v) ∧ (φ.IsUnexpected ∨ F used φ)
  /-- The tokens after the first one left do not matter. -/
  ok_local : ∀ {c d rest v}, tokens = c ++ rest → d ≠ [] → x tokens = .ok (v, d ++ rest) →
    ∀ rest', x (c ++ rest') = .ok (v, d ++ rest')
  /-- The tokens after the one at fault do not matter. -/
  error_local : ∀ {c d rest φ}, tokens = c ++ rest → d ≠ [] → x tokens = .error φ →
    φ.left = d ++ rest → ∀ rest', x (c ++ rest') = .error (φ.relocate (d ++ rest'))

namespace Rule.Follows

variable {S : Symbol α} {F : Blame} {tokens : List Token}

theorem pure {v : α} (h : S [] v) : (Pure.pure v : Rule α).Follows S F tokens where
  derives := by
    rintro w left ⟨rfl, rfl⟩
    exact ⟨[], rfl, h⟩
  completes := nofun
  ok_local := by
    rintro c d rest w rfl - heq rest'
    have hcd : c ++ rest = d ++ rest := (Prod.ext_iff.mp (Except.ok.inj heq)).2
    have hvw : v = w := (Prod.ext_iff.mp (Except.ok.inj heq)).1
    rw [← List.append_cancel_right hcd, ← hvw]
    rfl
  error_local := nofun

theorem pure_after {used : List Token} {v : α} (h : S used v) :
    (Pure.pure v : Rule α).Follows (S.after used) F tokens :=
  pure (by rwa [Symbol.after, List.append_nil])

/-- A fault at once, before anything is read. -/
theorem fault (φ : Fault) (hleft : (φ.relocate tokens).left = tokens) (hmore : ∃ more v, S more v)
    (hφ : (φ.relocate tokens).IsUnexpected ∨ F [] (φ.relocate tokens)) :
    Rule.Follows (fun l ↦ .error (φ.relocate l)) S F tokens where
  derives := nofun
  completes := by
    rintro _ ⟨rfl⟩
    exact ⟨[], hleft.symm, hmore, hφ⟩
  ok_local := nofun
  error_local := by
    rintro c d rest _ rfl - ⟨rfl⟩ hd rest'
    rw [List.append_cancel_right (hleft.symm.trans hd), Fault.relocate_relocate]

theorem fail (wanted : Wanted) (hmore : ∃ more v, S more v) :
    Rule.Follows (fun tokens ↦ .error (.unexpected wanted tokens)) S F tokens :=
  fault (.unexpected wanted []) rfl hmore (.inl ⟨wanted, tokens, rfl⟩)

/-- What was read lies within what is compared, as long as some of it is left. -/
private theorem eq_append_of_left {c d used rest : List Token} (htokens : tokens = c ++ rest)
    (hused : tokens = used ++ (d ++ rest)) : c = used ++ d := by
  rw [htokens, ← List.append_assoc] at hused
  exact List.append_cancel_right hused

private theorem head?_append_congr {c d used rest : List Token} (htokens : tokens = c ++ rest)
    (hused : tokens = used ++ (d ++ rest)) (hd : d ≠ []) (rest' : List Token) :
    (c ++ rest').head? = tokens.head? := by
  have hc : c ≠ [] := by
    rw [eq_append_of_left htokens hused]
    exact List.append_ne_nil_of_right_ne_nil _ hd
  obtain ⟨t, c, rfl⟩ := List.exists_cons_of_ne_nil hc
  rw [htokens]
  rfl

/-- Only what a rule does at tokens with the same head matters. -/
theorem congr_head {x y : Rule α} (hy : y.Follows S F tokens)
    (h : ∀ l, l.head? = tokens.head? → x l = y l) : x.Follows S F tokens where
  derives hx := hy.derives (h _ rfl ▸ hx)
  completes hx := hy.completes (h _ rfl ▸ hx)
  ok_local := by
    intro c d rest v hc hd hx rest'
    rw [h _ rfl] at hx
    obtain ⟨used, hused, -⟩ := hy.derives hx
    rw [h _ (head?_append_congr hc hused hd rest')]
    exact hy.ok_local hc hd hx rest'
  error_local := by
    intro c d rest φ hc hd hx hleft rest'
    rw [h _ rfl] at hx
    obtain ⟨used, hused, -⟩ := hy.completes hx
    rw [h _ (head?_append_congr hc (hleft ▸ hused) hd rest')]
    exact hy.error_local hc hd hx hleft rest'

theorem congr_cons {x y : Rule α} {t : Token} (hy : y.Follows S F (t :: tokens))
    (h : ∀ l, x (t :: l) = y (t :: l)) : x.Follows S F (t :: tokens) := by
  refine hy.congr_head fun l hl ↦ ?_
  obtain ⟨l, rfl⟩ := List.head?_eq_some_iff.mp hl
  exact h l

theorem congr_stops {x y : Rule α} {kinds : List TokenKind} (hy : y.Follows S F tokens)
    (hstops : Stops kinds tokens) (h : ∀ l, Stops kinds l → x l = y l) : x.Follows S F tokens := by
  refine hy.congr_head fun l hl ↦ h l ?_
  rwa [Stops, hl]

/-- A rule that sets in after the first token. -/
theorem tail {x : Rule α} {t : Token} (h : x.Follows (S.after [t]) (F.after [t]) tokens) :
    x.tail.Follows S F (t :: tokens) where
  derives hx := by
    obtain ⟨used, hused, hv⟩ := h.derives hx
    exact ⟨t :: used, by rw [hused, List.cons_append], hv⟩
  completes hx := by
    obtain ⟨used, hused, hmore, hφ⟩ := h.completes hx
    exact ⟨t :: used, by rw [List.cons_append, ← hused], hmore, hφ⟩
  ok_local := by
    intro c d rest v hc hd hx rest'
    obtain ⟨used, hused, -⟩ := h.derives hx
    obtain rfl := eq_append_of_left hc (by rw [hused, ← List.cons_append])
    exact h.ok_local (hused.trans (List.append_assoc ..).symm) hd hx rest'
  error_local := by
    intro c d rest φ hc hd hx hleft rest'
    obtain ⟨used, hused, -⟩ := h.completes hx
    rw [hleft] at hused
    obtain rfl := eq_append_of_left hc (by rw [hused, ← List.cons_append])
    exact h.error_local (hused.trans (List.append_assoc ..).symm) hd hx hleft rest'

/-- **Steps put together.** What the first step derives must leave something of the symbol that
can be derived, and the second step reads what is left of it. -/
theorem bind {x : Rule α} {g : α → Rule β} {R : Symbol α} {S : Symbol β} {E F : Blame}
    (hx : x.Follows R E tokens) (hblame : ∀ used φ, E used φ → F used φ)
    (hmore : ∀ used v, R used v → ∃ more w, S (used ++ more) w)
    (hg : ∀ used left v, tokens = used ++ left → R used v →
      (g v).Follows (S.after used) (F.after used) left) :
    (x >>= g).Follows S F tokens where
  derives {w left} h := by
    cases hv : x tokens with
    | error φ => rw [bind_error hv] at h; cases h
    | ok p =>
      rw [bind_ok hv] at h
      obtain ⟨used, hused, hR⟩ := hx.derives hv
      obtain ⟨more, hleft, hw⟩ := (hg _ _ _ hused hR).derives h
      exact ⟨used ++ more, by rw [hused, hleft, List.append_assoc], hw⟩
  completes {φ} h := by
    cases hv : x tokens with
    | error φ' =>
      -- two completions: that of the first step, and then what is left of the symbol
      obtain rfl : φ' = φ := by rw [bind_error hv] at h; exact Except.error.inj h
      obtain ⟨used, hused, ⟨more, v, hR⟩, hφ⟩ := hx.completes hv
      obtain ⟨more', w, hw⟩ := hmore _ _ hR
      exact ⟨used, hused, ⟨more ++ more', w, by rwa [← List.append_assoc]⟩,
        hφ.imp_right (hblame _ _)⟩
    | ok p =>
      -- the completion is the second step's, after what the first one read
      rw [bind_ok hv] at h
      obtain ⟨used, hused, hR⟩ := hx.derives hv
      obtain ⟨used', hused', ⟨more, w, hw⟩, hφ⟩ := (hg _ _ _ hused hR).completes h
      refine ⟨used ++ used', by rw [List.append_assoc, ← hused', hused], ⟨more, w, ?_⟩, hφ⟩
      rwa [List.append_assoc]
  ok_local {c d rest w} hc hd h rest' := by
    cases hv : x tokens with
    | error φ => rw [bind_error hv] at h; cases h
    | ok p =>
      obtain ⟨v, mid⟩ := p
      rw [bind_ok hv] at h
      obtain ⟨used, hused, hR⟩ := hx.derives hv
      obtain ⟨used', hused', -⟩ := (hg _ _ _ hused hR).derives h
      -- the first step leaves the token `d` starts with, so it does not look further either
      have hmid : mid = (used' ++ d) ++ rest := by rw [hused', List.append_assoc]
      have hd' : used' ++ d ≠ [] := List.append_ne_nil_of_right_ne_nil _ hd
      rw [bind_ok (hx.ok_local hc hd' (hmid ▸ hv) rest')]
      exact (hg _ _ _ hused hR).ok_local hmid hd h rest'
  error_local {c d rest φ} hc hd h hleft rest' := by
    cases hv : x tokens with
    | error φ' =>
      obtain rfl : φ' = φ := by rw [bind_error hv] at h; exact Except.error.inj h
      exact bind_error (hx.error_local hc hd hv hleft rest')
    | ok p =>
      obtain ⟨v, mid⟩ := p
      rw [bind_ok hv] at h
      obtain ⟨used, hused, hR⟩ := hx.derives hv
      obtain ⟨used', hused', -⟩ := (hg _ _ _ hused hR).completes h
      have hmid : mid = (used' ++ d) ++ rest := by rw [hused', hleft, List.append_assoc]
      have hd' : used' ++ d ≠ [] := List.append_ne_nil_of_right_ne_nil _ hd
      rw [bind_ok (hx.ok_local hc hd' (hmid ▸ hv) rest')]
      exact (hg _ _ _ hused hR).error_local hmid hd h hleft rest'

/-- A rule that reads a symbol reads every symbol that derives as much. -/
theorem mono {x : Rule α} {R : Symbol α} {E : Blame} (hx : x.Follows R E tokens)
    (hblame : ∀ used φ, E used φ → F used φ) (h : ∀ used v, R used v → S used v) :
    x.Follows S F tokens where
  derives hv := by
    obtain ⟨used, hused, hR⟩ := hx.derives hv
    exact ⟨used, hused, h _ _ hR⟩
  completes hφ := by
    obtain ⟨used, hused, ⟨more, v, hR⟩, hE⟩ := hx.completes hφ
    exact ⟨used, hused, ⟨more, v, h _ _ hR⟩, hE.imp_right (hblame _ _)⟩
  ok_local := hx.ok_local
  error_local := hx.error_local

/-- A last step that only changes what is returned. -/
theorem map {x : Rule α} {R : Symbol α} {S : Symbol β} {E : Blame} {f : α → β}
    (hx : x.Follows R E tokens) (hblame : ∀ used φ, E used φ → F used φ)
    (h : ∀ used v, R used v → S used (f v)) :
    (x >>= fun v ↦ Pure.pure (f v)).Follows S F tokens := by
  refine hx.bind hblame (fun used v hR ↦ ⟨[], f v, ?_⟩) fun used left v _ hR ↦ pure ?_
  · rw [List.append_nil]
    exact h used v hR
  · rw [Symbol.after, List.append_nil]
    exact h used v hR

/-- A choice made by the kind of the first token. -/
theorem eat {kind : TokenKind} {g : Option Token → Rule α}
    (hsome : ∀ t left, tokens = t :: left → t.kind = kind →
      (g (some t)).Follows (S.after [t]) (F.after [t]) left)
    (hnone : Stops [kind] tokens → (g none).Follows S F tokens) :
    (Rule.eat kind >>= g).Follows S F tokens := by
  by_cases hstops : Stops [kind] tokens
  · exact (hnone hstops).congr_stops hstops fun l hl ↦ eat_bind_of_stops hl g
  · obtain ⟨t, left, rfl, hkind⟩ := exists_cons_of_not_stops hstops
    rw [List.mem_singleton] at hkind
    exact (hsome t left rfl hkind).tail.congr_cons fun l ↦ eat_bind_of_kind hkind g l

/-- A token that has to be there. -/
theorem expect {wanted : Wanted} {kind : TokenKind} {g : Token → Rule α}
    (hmore : ∃ more v, S more v)
    (hg : ∀ t left, tokens = t :: left → t.kind = kind →
      (g t).Follows (S.after [t]) (F.after [t]) left) :
    (rule (Grammar.expect wanted kind) >>= g).Follows S F tokens := by
  by_cases hstops : Stops [kind] tokens
  · exact (fail wanted hmore).congr_stops hstops fun l hl ↦ bind_error (expect_of_stops hl)
  · obtain ⟨t, left, rfl, hkind⟩ := exists_cons_of_not_stops hstops
    rw [List.mem_singleton] at hkind
    exact (hg t left rfl hkind).tail.congr_cons fun l ↦ bind_ok (expect_of_kind hkind l)

end Rule.Follows

end Grammar

end FieldPaths
