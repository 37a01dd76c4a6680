import FieldPaths.SchemaFile
import FieldPaths.Proofs.Grammar.FirstFault
import FieldPaths.Proofs.Token.Order

/-!
# What a schema text is read as

The theory of the grammar carried over to texts: which texts are schema files and what they
declare, and where the diagnostic of a text that is none points to.

A diagnostic keeps a place and not a token. The token is found by its place, and the end of the
text is told from every token by being empty; that no two tokens have one place is where the order
of the tokens comes in.
-/

namespace FieldPaths

/-! ## Kinds of diagnostics -/

theorem Wanted.kind_ne (wanted : Wanted) : wanted.kind ≠ .unexpectedCharacter ∧
    wanted.kind ≠ .duplicateModifier ∧ wanted.kind ≠ .unclosedBody := by
  cases wanted <;> exact ⟨nofun, nofun, nofun⟩

namespace Fault

variable {source : Nat} {text : String} {φ : Fault}

/-- The kinds that say what the fault is. -/
theorem diagnostic_kind_iff (source : Nat) (text : String) (φ : Fault) :
    ((φ.diagnostic source text).kind = .unexpectedCharacter ↔
      φ.IsUnexpected ∧ ∃ t ∈ φ.left.head?, t.kind = .garbage) ∧
    ((φ.diagnostic source text).kind = .duplicateModifier ↔
      ∃ t left, φ = .repeatedModifier t left) ∧
    ((φ.diagnostic source text).kind = .unclosedBody ↔
      ∃ name brace, φ = .unclosedBody name brace) := by
  rcases φ with ⟨wanted, _ | ⟨t, left⟩⟩ | ⟨t, left⟩ | ⟨name, brace⟩
  · simp [diagnostic, left, Wanted.kind_ne]
  · by_cases h : t.kind = .garbage <;>
      simp [diagnostic, IsUnexpected, Fault.left, h, Wanted.kind_ne]
  · simp [diagnostic, IsUnexpected]
  · simp [diagnostic, IsUnexpected]

theorem kind_eq_unclosedBody : (φ.diagnostic source text).kind = .unclosedBody ↔
    ∃ name brace, φ = .unclosedBody name brace := (diagnostic_kind_iff source text φ).2.2

theorem diagnostic_isError (source : Nat) (text : String) (φ : Fault) :
    (φ.diagnostic source text).isError = true := by
  rcases φ with ⟨wanted, _ | ⟨t, left⟩⟩ | ⟨t, left⟩ | ⟨name, brace⟩
  · cases wanted <;> rfl
  · rw [diagnostic]
    split
    · rfl
    · cases wanted <;> rfl
  · rfl
  · rfl

/-- Unless it is about a body, a diagnostic is at the first token that is left, or at the end. -/
theorem span_eq (hunclosed : ∀ name brace, φ ≠ .unclosedBody name brace)
    (hrepeated : ∀ t left, φ = .repeatedModifier t left → left.head? = some t) :
    (φ.diagnostic source text).span = match φ.left.head? with
      | some t => t.span source
      | none => ⟨source, text.utf8ByteSize, text.utf8ByteSize⟩ := by
  rcases φ with ⟨wanted, _ | ⟨t, left⟩⟩ | ⟨t, left⟩ | ⟨name, brace⟩
  · rfl
  · by_cases h : t.kind = .garbage <;> simp [diagnostic, Fault.left, h]
  · rw [Fault.left, hrepeated t left rfl, diagnostic]
  · exact absurd rfl (hunclosed name brace)

end Fault

namespace SchemaFile

open Grammar

variable {source : Nat} {text : String}

theorem read_diagnostic (source : Nat) (text : String) : (read source text).diagnostic =
    (Grammar.declarations source (Token.scan text)).2.map (·.diagnostic source text) := rfl

/-! ## Schema files -/

/-- **Reading is exact.** A text is read without a diagnostic exactly if its tokens derive, and what
is declared is what the derivation denotes. -/
theorem read_exact (source : Nat) (text : String) :
    ((read source text).diagnostic = none ↔ ∃ decls, IsFile source (Token.scan text) decls) ∧
      ∀ decls, IsFile source (Token.scan text) decls ↔ read source text = ⟨decls, none⟩ := by
  have hread (decls : List (Declaration Span)) :
      IsFile source (Token.scan text) decls ↔ read source text = ⟨decls, none⟩ := by
    rw [isFile_iff, read]
    cases Grammar.declarations source (Token.scan text) with
    | mk decls' fault => simp
  refine ⟨⟨fun h ↦ ⟨(read source text).declarations, (hread _).mpr ?_⟩, ?_⟩, hread⟩
  · rw [← h]
  · rintro ⟨decls, h⟩
    rw [(hread decls).mp h]

/-! ## The first fault -/

/-- The place of the token with an index. The place of the end is the empty one there. -/
def placeOf (source : Nat) (text : String) (i : Nat) : Span :=
  match (Token.scan text)[i]? with
  | some t => t.span source
  | none => ⟨source, text.utf8ByteSize, text.utf8ByteSize⟩

/-- The tokens and the end of a text have places of their own. -/
theorem placeOf_inj {i j : Nat} (hi : i ≤ (Token.scan text).length)
    (hj : j ≤ (Token.scan text).length) (h : placeOf source text i = placeOf source text j) :
    i = j := by
  have hlast {k : Nat} (hk : k ≤ (Token.scan text).length) (hnone : (Token.scan text)[k]? = none) :
      k = (Token.scan text).length := Nat.le_antisymm hk (List.getElem?_eq_none_iff.mp hnone)
  -- a token has bytes of its own and the place of the end has none
  have hend {k : Nat} {t : Token} (ht : (Token.scan text)[k]? = some t)
      (hplace : t.span source = ⟨source, text.utf8ByteSize, text.utf8ByteSize⟩) : False := by
    have hlt := (Token.scan_bounds (List.mem_of_getElem? ht)).1
    rw [Token.span, Span.mk.injEq] at hplace
    omega
  rw [placeOf, placeOf] at h
  cases hs : (Token.scan text)[i]? with
  | none =>
    cases ht : (Token.scan text)[j]? with
    | none => rw [hlast hi hs, hlast hj ht]
    | some t =>
      rw [hs, ht] at h
      exact (hend ht h.symm).elim
  | some s =>
    cases ht : (Token.scan text)[j]? with
    | none =>
      rw [hs, ht] at h
      exact (hend hs h).elim
    | some t =>
      rw [hs, ht] at h
      exact Token.eq_of_getElem?_scan hs ht (Span.mk.inj h).2.1

/-- A diagnostic stands at the token with an index, or at the end. A body that is not closed is
reported where it starts; what is at fault is the end. -/
def IsOffending (source : Nat) (text : String) (d : Diagnostic) (i : Nat) : Prop :=
  i ≤ (Token.scan text).length ∧
    if d.kind = .unclosedBody then i = (Token.scan text).length else d.span = placeOf source text i

theorem IsOffending.unique {d : Diagnostic} {i j : Nat} (hi : IsOffending source text d i)
    (hj : IsOffending source text d j) : i = j := by
  obtain ⟨hi, hi'⟩ := hi
  obtain ⟨hj, hj'⟩ := hj
  by_cases hkind : d.kind = .unclosedBody
  · rw [if_pos hkind] at hi' hj'
    rw [hi', hj']
  · rw [if_neg hkind] at hi' hj'
    exact placeOf_inj hi hj (hi'.symm.trans hj')

/-- What a diagnostic that stands at the token with an index, or at the end, has to say of a text
whose first fault this is. -/
structure IsFirstFault (source : Nat) (text : String) (d : Diagnostic) (i : Nat) : Prop where
  offending : IsOffending source text d i
  /-- The tokens before can be completed. -/
  viable : IsViable source ((Token.scan text).take i)
  /-- With the token they cannot. -/
  not_viable : i < (Token.scan text).length → ¬ IsViable source ((Token.scan text).take (i + 1))
  /-- At the end, they would have to be completed. -/
  not_file : i = (Token.scan text).length → ¬ ∃ decls, IsFile source (Token.scan text) decls
  garbage_iff : d.kind = .unexpectedCharacter ↔
    ∃ t, (Token.scan text)[i]? = some t ∧ t.kind = .garbage
  repeats_iff : d.kind = .duplicateModifier ↔
    ∃ t, (Token.scan text)[i]? = some t ∧ Repeats source ((Token.scan text).take i) t
  unclosed_iff : d.kind = .unclosedBody ↔
    ∃ rbrace decls, rbrace.kind = .rBrace ∧ IsFile source (Token.scan text ++ [rbrace]) decls
  /-- A body that is not closed is reported at its brace. -/
  brace : (d.kind = .unclosedBody → ∃ name brace, IsOpenBody source (Token.scan text) name brace) ∧
    ∀ name brace, IsOpenBody source (Token.scan text) name brace → d.span = brace.span source

/-! A fault is met with its tokens left, so its index is the number of those before. -/

section Fault

variable {before : List Token} {φ : Fault} (htokens : Token.scan text = before ++ φ.left)
  (h : (Grammar.declarations source (Token.scan text)).2 = some φ)

include htokens

theorem take_before : (Token.scan text).take before.length = before := by
  rw [htokens, List.take_left]

theorem getElem?_before : (Token.scan text)[before.length]? = φ.left.head? := by
  rw [htokens, List.getElem?_append_right (Nat.le_refl _), Nat.sub_self, List.head?_eq_getElem?]

include h

theorem isOffending_before :
    IsOffending source text (φ.diagnostic source text) before.length := by
  refine ⟨?_, ?_⟩
  · rw [htokens, List.length_append]
    exact Nat.le_add_right ..
  · split
    · obtain ⟨name, brace, rfl⟩ := Fault.kind_eq_unclosedBody.mp ‹_›
      rw [htokens, Fault.left, List.append_nil]
    · rw [placeOf, getElem?_before htokens]
      refine Fault.span_eq (fun name brace hφ ↦ ?_) fun t left hφ ↦ ?_
      · exact absurd (Fault.kind_eq_unclosedBody.mpr ⟨name, brace, hφ⟩) ‹_›
      · have hhead := ((fault_iff_repeats (htokens ▸ h)).mp ⟨left, hφ⟩).1
        rwa [hφ, Fault.left] at hhead

theorem not_isViable_before (hlt : before.length < (Token.scan text).length) :
    ¬ IsViable source ((Token.scan text).take (before.length + 1)) := by
  cases hleft : φ.left with
  | nil =>
    rw [htokens, hleft, List.append_nil] at hlt
    exact absurd hlt (Nat.lt_irrefl _)
  | cons t left =>
    rw [htokens, hleft] at h
    rw [htokens, hleft, List.take_length_add_append]
    exact not_isViable h hleft

theorem isFirstFault :
    IsFirstFault source text (φ.diagnostic source text) before.length := by
  have hget := getElem?_before htokens
  have htake := take_before htokens
  obtain ⟨hgarbage, hrepeated, hunclosed⟩ := Fault.diagnostic_kind_iff source text φ
  have hoffending := isOffending_before htokens h
  refine ⟨hoffending, ?_, not_isViable_before htokens h, fun _ ↦ ?_, ?_, ?_, ?_, ?_⟩
  · rw [htake]
    exact isViable_of_fault (htokens ▸ h)
  · rintro ⟨decls, hfile⟩
    rw [(isFile_iff ..).mp hfile] at h
    exact Option.some_ne_none φ h.symm
  · rw [hget, hgarbage]
    constructor
    · rintro ⟨-, ht⟩
      exact ht
    · rintro ⟨t, ht, hkind⟩
      exact ⟨isUnexpected_of_garbage h ht hkind, t, ht, hkind⟩
  · rw [htake, hget, hrepeated]
    exact exists_congr fun t ↦ fault_iff_repeats (htokens ▸ h)
  · rw [hunclosed]
    constructor
    · rintro ⟨name, brace, hφ⟩
      have hrbrace : (sample .rBrace).kind = .rBrace := rfl
      obtain ⟨decls, hclosed⟩ := ((fault_iff_isOpenBody h).mp hφ).close hrbrace
      exact ⟨_, decls, hrbrace, hclosed⟩
    · rintro ⟨rbrace, decls, hrbrace, hclosed⟩
      obtain ⟨name, brace, hbody⟩ := (isFile_concat_iff hrbrace).mp ⟨decls, hclosed⟩
      exact ⟨name, brace, (fault_iff_isOpenBody h).mpr hbody⟩
  · refine ⟨fun hkind ↦ ?_, fun name brace hbody ↦ ?_⟩
    · obtain ⟨name, brace, hφ⟩ := hunclosed.mp hkind
      exact ⟨name, brace, (fault_iff_isOpenBody h).mp hφ⟩
    · rw [(fault_iff_isOpenBody h).mpr hbody]
      rfl

end Fault

/-- **The diagnostic is at the first fault.** A text that is no schema file has one diagnostic; it
stands at the first token that the tokens before cannot go on with, or at the end if that is what
they cannot go on with, and its kind is determined by the tokens up to there. -/
theorem read_first_fault (source : Nat) (text : String) (h : (read source text).isValid = false) :
    ∃ d i, (read source text).diagnostic = some d ∧ IsFirstFault source text d i ∧
      ∀ j, IsOffending source text d j → j = i := by
  cases hfault : (Grammar.declarations source (Token.scan text)).2 with
  | none =>
    rw [isValid, read_diagnostic, hfault] at h
    cases h
  | some φ =>
    obtain ⟨before, htokens, -⟩ := declarations_completes hfault
    have hfirst := isFirstFault htokens hfault
    refine ⟨_, before.length, ?_, hfirst, fun j hj ↦ hj.unique hfirst.offending⟩
    rw [read_diagnostic, hfault]
    rfl

/-- A body that is open where the text ends. -/
theorem read_first_fault_open_body : (read 0 "class A \x7b fn b()").isValid = false ∧
    ∃ d i, (read 0 "class A \x7b fn b()").diagnostic = some d ∧
      IsFirstFault 0 "class A \x7b fn b()" d i ∧
        ∀ j, IsOffending 0 "class A \x7b fn b()" d j → j = i := by
  have h : (read 0 "class A \x7b fn b()").isValid = false := by decide +kernel
  exact ⟨h, read_first_fault 0 "class A \x7b fn b()" h⟩

end SchemaFile

end FieldPaths
