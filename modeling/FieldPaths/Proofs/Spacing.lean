import FieldPaths.Proofs.Sources
import FieldPaths.Proofs.Token.Exact

/-!
# The space between tokens

Every gap of a text, before, between and after its tokens, can be filled in another way. As long as
white space comes first in it and no comment is left open, the tokens stay what they are, and the
text is read as before.

White space ends every token, so it does not make the token before the gap longer. What has to be
seen is that the tokens before the gap were not cut as they were because of what stood in the gap
or behind it. They are cut by looking at the next character, and further only where a `/` may start
a comment. So the division of a text keeps track of whether its front starts a comment by itself
(`Scans.divide`).
-/

namespace FieldPaths

namespace Token

/-! ## Separators -/

/-- White space and comments, every one of which is ended by a line feed. -/
inductive IsSpacing : List Char → Prop
  | nil : IsSpacing []
  | space {c : Char} {more : List Char} (hc : c = ' ' ∨ c = '\t' ∨ c = '\r' ∨ c = '\n' ∨ c = '\x0c')
      (hmore : IsSpacing more) : IsSpacing (c :: more)
  | comment {cs more : List Char} (hcs : '\n' ∉ cs) (hmore : IsSpacing more) :
      IsSpacing ('/' :: '/' :: cs ++ '\n' :: more)

/-- White space and ended comments, with white space at the front. -/
def IsSeparator (cs : List Char) : Prop :=
  IsSpacing cs ∧ ∃ c ∈ cs.head?, c = ' ' ∨ c = '\t' ∨ c = '\r' ∨ c = '\n' ∨ c = '\x0c'

theorem IsSeparator.exists_cons {cs : List Char} (h : IsSeparator cs) :
    ∃ s more, cs = s :: more ∧ isSpace s = true := by
  obtain ⟨s, hs, hspace⟩ := h.2
  obtain ⟨more, rfl⟩ := List.head?_eq_some_iff.mp hs
  exact ⟨s, more, rfl, isSpace_iff.mpr hspace⟩

/-- Spacing is skipped. -/
theorem scanFrom_spacing {cs : List Char} (h : IsSpacing cs) (offset : Nat) (rest : List Char) :
    scanFrom offset (cs ++ rest) = scanFrom (offset + byteCount cs) rest := by
  induction h generalizing offset with
  | nil => rfl
  | @space c more hc _ ih =>
    rw [List.cons_append, scanFrom_space (isSpace_iff.mpr hc), ih, Nat.add_assoc,
      ← byteCount_append, List.singleton_append]
  | @comment cs more hcs _ ih =>
    have hend : ∀ c ∈ ('\n' :: more ++ rest).head?, c = '\n' := fun c hc ↦ (Option.some.inj hc).symm
    rw [List.append_assoc, scanFrom_comment hcs hend, List.cons_append, scanFrom_space rfl, ih,
      Nat.add_assoc, Nat.add_assoc, ← byteCount_append, ← byteCount_append, List.singleton_append]

/-! ## What stands before a separator -/

/-- Where no comment starts, none starts with less behind. -/
theorem startsComment_front {front rest : List Char} (h : startsComment (front ++ rest) = false) :
    startsComment front = false := by
  rw [Bool.eq_false_iff] at h ⊢
  intro hfront
  apply h
  rw [startsComment.eq_def] at hfront
  split at hfront
  · rfl
  · cases hfront

/-- An unrecognized character is unrecognized with less behind. -/
theorem startsGarbage_front {c : Char} {front rest : List Char}
    (h : startsGarbage (c :: front ++ rest) = true) : startsGarbage (c :: front) = true := by
  obtain ⟨hspace, hname, hkind, hcomment⟩ := startsGarbage_cons.mp h
  exact startsGarbage_cons.mpr ⟨hspace, hname, hkind, startsComment_front hcomment⟩

section Lexeme

variable {kind : TokenKind} {cs front rest : List Char}

/-- No token starts a comment. -/
theorem IsLexeme.startsComment_eq_false (h : IsLexeme kind cs rest) :
    startsComment (cs ++ rest) = false := by
  cases h with
  | name hc => exact startsComment_of_ne (slash_ne_of_isNameStart hc) _
  | punctuation hc => exact startsComment_of_ne (class_of_punctuation hc).2.2 _
  | garbage hne hrun =>
    obtain ⟨c, run, rfl⟩ := List.exists_cons_of_ne_nil hne
    exact (startsGarbage_cons.mp (hrun [] c run rfl)).2.2.2

/-- A token stays one if what follows is cut off by a separator, unless that leaves a `/` alone
that started a comment. -/
theorem IsLexeme.cut (h : IsLexeme kind cs (front ++ rest))
    (hfront : front ≠ [] → startsComment (front ++ rest) = startsComment front) {s : Char}
    (hs : isSpace s = true) (ds : List Char) : IsLexeme kind cs (front ++ s :: ds) := by
  cases h with
  | name hc hmore hrest =>
    refine .name hc hmore fun d hd ↦ ?_
    cases front with
    | nil =>
      obtain rfl := Option.some.inj hd
      exact isNameContinue_of_isSpace hs
    | cons r front => exact hrest d hd
  | punctuation hc => exact .punctuation hc
  | garbage hne hrun hrest =>
    refine .garbage hne (fun before c after hcs ↦ ?_) ?_
    · have hstarts := hrun before c after hcs
      rw [← List.append_assoc, ← List.cons_append] at hstarts ⊢
      rw [startsGarbage_append hs]
      exact startsGarbage_front hstarts
    · rw [startsGarbage_append hs]
      cases front with
      | nil => rfl
      | cons r front =>
        rw [List.cons_append, startsGarbage, ← List.cons_append,
          hfront (List.cons_ne_nil _ _)] at hrest
        rwa [startsGarbage]

end Lexeme

/-- Before a separator, `front` is cut into the tokens. -/
def CutsInto (offset : Nat) (front : List Char) (tokens : List Token) : Prop :=
  ∀ s ds, isSpace s = true → scanFrom offset (front ++ s :: ds)
    = tokens ++ scanFrom (offset + byteCount front) (s :: ds)

section CutsInto

variable {offset : Nat} {front : List Char} {tokens : List Token}

theorem CutsInto.nil (offset : Nat) : CutsInto offset [] [] := fun _ _ _ ↦ rfl

theorem CutsInto.space {c : Char} (hc : isSpace c = true)
    (h : CutsInto (offset + byteCount [c]) front tokens) : CutsInto offset (c :: front) tokens := by
  intro s ds hs
  rw [List.cons_append, scanFrom_space hc, h s ds hs, Nat.add_assoc, ← byteCount_append,
    List.singleton_append]

theorem CutsInto.comment {cs : List Char} (hcs : '\n' ∉ cs) (hfront : ∃ c ∈ front.head?, c = '\n')
    (h : CutsInto (offset + byteCount ('/' :: '/' :: cs)) front tokens) :
    CutsInto offset ('/' :: '/' :: cs ++ front) tokens := by
  intro s ds hs
  obtain ⟨c, hc, rfl⟩ := hfront
  obtain ⟨front, rfl⟩ := List.head?_eq_some_iff.mp hc
  have hend : ∀ c ∈ ('\n' :: front ++ s :: ds).head?, c = '\n' :=
    fun c hc ↦ (Option.some.inj hc).symm
  rw [List.append_assoc, scanFrom_comment hcs hend, h s ds hs, Nat.add_assoc, ← byteCount_append]

theorem CutsInto.token {kind : TokenKind} {cs : List Char}
    (hcs : ∀ s ds, isSpace s = true → IsLexeme kind cs (front ++ s :: ds))
    (h : CutsInto (offset + byteCount cs) front tokens) :
    CutsInto offset (cs ++ front) (⟨kind, offset, String.ofList cs⟩ :: tokens) := by
  intro s ds hs
  rw [List.append_assoc, scanFrom_lexeme (hcs s ds hs), h s ds hs, Nat.add_assoc,
    ← byteCount_append, List.cons_append]

end CutsInto

/-! ## Divisions of a text -/

/-- Where the last of some tokens ends. -/
def stopOf (start : Nat) : List Token → Nat
  | [] => start
  | t :: more => stopOf t.stop more

theorem stopOf_eq {tokens : List Token} (h : tokens ≠ []) (start start' : Nat) :
    stopOf start tokens = stopOf start' tokens := by
  obtain ⟨t, more, rfl⟩ := List.exists_cons_of_ne_nil h
  rfl

/-- Where the first of some tokens starts. -/
def startOf (finish : Nat) : List Token → Nat
  | [] => finish
  | t :: _ => t.start

/-- A gap is between the tokens before it and those behind. -/
theorem exists_append_of_mem_gaps {start finish : Nat} {tokens : List Token} {range : Nat × Nat}
    (h : range ∈ gaps start finish tokens) : ∃ before after, tokens = before ++ after ∧
      range = (stopOf start before, startOf finish after) := by
  induction tokens generalizing start with
  | nil => exact ⟨[], [], rfl, List.mem_singleton.mp h⟩
  | cons t more ih =>
    rcases List.mem_cons.mp h with rfl | h
    · exact ⟨[], t :: more, rfl, rfl⟩
    · obtain ⟨before, after, rfl, rfl⟩ := ih h
      exact ⟨t :: before, after, rfl, rfl⟩

variable {offset : Nat} {cs : List Char} {tokens before after : List Token}

/-- What stands before the first token can be left out. -/
theorem Scans.lead (h : Scans offset cs tokens) : ∃ gap back, cs = gap ++ back ∧
    offset + byteCount gap = startOf (offset + byteCount cs) tokens ∧
      scanFrom (offset + byteCount gap) back = tokens := by
  induction h with
  | nil => exact ⟨[], [], rfl, rfl, by rw [scanFrom]⟩
  | @space offset c rest tokens _ _ ih =>
    obtain ⟨gap, back, rfl, hstart, hback⟩ := ih
    rw [Nat.add_assoc, Nat.add_assoc, ← byteCount_append, ← byteCount_append] at hstart
    rw [Nat.add_assoc, ← byteCount_append] at hback
    exact ⟨[c] ++ gap, back, rfl, hstart, hback⟩
  | @comment offset cs rest tokens _ _ _ ih =>
    obtain ⟨gap, back, rfl, hstart, hback⟩ := ih
    rw [Nat.add_assoc, Nat.add_assoc, ← byteCount_append, ← byteCount_append] at hstart
    rw [Nat.add_assoc, ← byteCount_append] at hback
    exact ⟨'/' :: '/' :: cs ++ gap, back, (List.append_assoc ..).symm, hstart, hback⟩
  | token hcs h => exact ⟨[], _, rfl, rfl, scans_iff.mp (.token hcs h)⟩

/-- A text is divided behind some of its tokens. -/
structure IsDivision (offset : Nat) (front rest : List Char) (before after : List Token) :
    Prop where
  ne_nil : front ≠ []
  /-- It is seen in front of the division whether the text starts with a comment. -/
  comment : startsComment (front ++ rest) = startsComment front
  stop : offset + byteCount front = stopOf offset before
  cuts : CutsInto offset front before
  scans : Scans (offset + byteCount front) rest after

/-- A text can be divided behind any of its tokens. -/
theorem Scans.divide (h : Scans offset cs (before ++ after)) (hne : before ≠ []) :
    ∃ front rest, cs = front ++ rest ∧ IsDivision offset front rest before after := by
  generalize htokens : before ++ after = tokens at h
  induction h generalizing before with
  | nil => exact absurd (List.append_eq_nil_iff.mp htokens).1 hne
  | @space offset c rest tokens hc _ ih =>
    obtain ⟨front, rest, rfl, hdivision⟩ := ih hne htokens
    refine ⟨[c] ++ front, rest, rfl, List.cons_ne_nil _ _, ?_, ?_, .space hc hdivision.cuts, ?_⟩
    · have hslash := slash_ne_of_isSpace hc
      exact (startsComment_of_ne hslash _).trans (startsComment_of_ne hslash _).symm
    · rw [byteCount_append, ← Nat.add_assoc, hdivision.stop, stopOf_eq hne]
    · rw [byteCount_append, ← Nat.add_assoc]
      exact hdivision.scans
  | @comment offset cs rest tokens hcs hend _ ih =>
    obtain ⟨front, rest, rfl, hdivision⟩ := ih hne htokens
    obtain ⟨c, front, rfl⟩ := List.exists_cons_of_ne_nil hdivision.ne_nil
    refine ⟨'/' :: '/' :: cs ++ c :: front, rest, (List.append_assoc ..).symm,
      List.cons_ne_nil _ _, rfl, ?_, .comment hcs ⟨c, rfl, hend c rfl⟩ hdivision.cuts, ?_⟩
    · rw [byteCount_append, ← Nat.add_assoc, hdivision.stop, stopOf_eq hne]
    · rw [byteCount_append, ← Nat.add_assoc]
      exact hdivision.scans
  | @token offset kind cs rest tokens hcs hrest ih =>
    obtain ⟨t, before, rfl⟩ := List.exists_cons_of_ne_nil hne
    obtain ⟨rfl, rfl⟩ := List.cons.inj htokens
    have hstop : (⟨kind, offset, String.ofList cs⟩ : Token).stop = offset + byteCount cs := by
      rw [stop, utf8ByteSize_ofList]
    -- the division is right behind this token, or behind a later one
    by_cases hbefore : before = []
    · subst hbefore
      have hcomment := hcs.startsComment_eq_false
      refine ⟨cs, rest, rfl, hcs.ne_nil, hcomment.trans (startsComment_front hcomment).symm,
        hstop.symm, ?_, hrest⟩
      have hcuts := CutsInto.token (fun s ds hs ↦ hcs.cut (absurd rfl) hs ds)
        (CutsInto.nil (offset + byteCount cs))
      rwa [List.append_nil] at hcuts
    · obtain ⟨front, rest, rfl, hdivision⟩ := ih hbefore rfl
      have hcomment := hcs.startsComment_eq_false
      rw [← List.append_assoc] at hcomment
      refine ⟨cs ++ front, rest, (List.append_assoc ..).symm, ?_, ?_, ?_, ?_, ?_⟩
      · exact List.append_ne_nil_of_left_ne_nil hcs.ne_nil front
      · exact hcomment.trans (startsComment_front hcomment).symm
      · rw [byteCount_append, ← Nat.add_assoc, hdivision.stop, stopOf, hstop]
      · exact .token (fun s ds hs ↦ hcs.cut (fun _ ↦ hdivision.comment) hs ds) hdivision.cuts
      · rw [byteCount_append, ← Nat.add_assoc]
        exact hdivision.scans

/-- A text can be divided at any of its gaps, and its tokens too. -/
theorem Scans.divide_gap {range : Nat × Nat} (h : Scans offset cs tokens)
    (hrange : range ∈ gaps offset (offset + byteCount cs) tokens) :
    ∃ front gap back before after, cs = front ++ (gap ++ back) ∧ tokens = before ++ after ∧
      offset + byteCount front = range.1 ∧ offset + byteCount front + byteCount gap = range.2 ∧
      CutsInto offset front before ∧
      scanFrom (offset + byteCount front + byteCount gap) back = after := by
  obtain ⟨before, after, rfl, rfl⟩ := exists_append_of_mem_gaps hrange
  by_cases hbefore : before = []
  · subst hbefore
    obtain ⟨gap, back, rfl, hstart, hback⟩ := h.lead
    exact ⟨[], gap, back, [], after, rfl, rfl, rfl, hstart, .nil offset, hback⟩
  · obtain ⟨front, rest, rfl, hdivision⟩ := h.divide hbefore
    obtain ⟨gap, back, rfl, hstart, hback⟩ := hdivision.scans.lead
    rw [Nat.add_assoc offset (byteCount front) (byteCount (gap ++ back)),
      ← byteCount_append front] at hstart
    exact ⟨front, gap, back, before, after, rfl, rfl, hdivision.stop, hstart, hdivision.cuts, hback⟩

/-- **The filling of a gap does not matter to the tokens.** -/
theorem words_refill {text : String} {range : Nat × Nat}
    (hrange : range ∈ gaps 0 text.utf8ByteSize (scan text)) :
    ∃ front gap back : String, text = front ++ gap ++ back ∧
      front.utf8ByteSize = range.1 ∧ (front ++ gap).utf8ByteSize = range.2 ∧
      ∀ filling : String, IsSeparator filling.toList →
        words (front ++ filling ++ back) = words text := by
  rw [← byteCount_toList, ← Nat.zero_add (byteCount _)] at hrange
  obtain ⟨front, gap, back, before, after, htext, htokens, hstart, hstop, hcuts, hback⟩ :=
    (scans_scan text).divide_gap hrange
  refine ⟨.ofList front, .ofList gap, .ofList back, ?_, ?_, ?_, fun filling hfilling ↦ ?_⟩
  · rw [← String.toList_inj, htext]
    simp
  · rw [utf8ByteSize_ofList, ← hstart, Nat.zero_add]
  · rw [← String.ofList_append, utf8ByteSize_ofList, ← hstop, Nat.zero_add, byteCount_append]
  · obtain ⟨s, more, hcons, hs⟩ := hfilling.exists_cons
    have hchars : (String.ofList front ++ filling ++ String.ofList back).toList
        = front ++ s :: (more ++ back) := by
      rw [String.toList_append, String.toList_append, hcons, String.toList_ofList,
        String.toList_ofList, List.append_assoc, List.cons_append]
    rw [words, words, htokens, scan_eq_scanFrom, hchars, hcuts s _ hs, ← List.cons_append, ← hcons,
      scanFrom_spacing hfilling.1, List.map_append, List.map_append, ← hback]
    exact congrArg _ (scanFrom_unplaced ..)

end Token

/-! ## Reading -/

/-- What a fault says does not depend on places. -/
theorem Fault.diagnostic_content_unplaced (φ : Fault) (source : Nat) (text : String) :
    (φ.diagnostic source text).content = (φ.unplaced.diagnostic 0 "").content := by
  cases φ with
  | unexpected wanted left =>
    cases left with
    | nil => rfl
    | cons t left =>
      rw [unplaced, List.map_cons, diagnostic, diagnostic]
      by_cases hkind : t.kind = .garbage
      · rw [if_pos hkind, if_pos (show t.unplaced.kind = .garbage from hkind)]
        rfl
      · rw [if_neg hkind, if_neg (show t.unplaced.kind ≠ .garbage from hkind)]
        rfl
  | repeatedModifier modifier left => rfl
  | unclosedBody name brace => rfl

namespace SchemaFile

/-- What is said about a text is decided by its tokens without their places. -/
theorem read_diagnostic_content (source : Nat) (text : String) :
    (read source text).diagnostic.map Diagnostic.content
      = (Grammar.declarations 0 (Token.words text)).2.map fun φ ↦ (φ.diagnostic 0 "").content := by
  rw [Token.words, Grammar.declarations_unplaced source, read_diagnostic, Option.map_map,
    Option.map_map]
  exact Option.map_congr fun φ _ ↦ φ.diagnostic_content_unplaced source text

/-- **Formatting does not matter.** Every range of bytes before, between or after the tokens of a
text divides it. Put any white space and ended comments there, with white space at the front, and
the tokens are of the same kinds and have the same texts, and the text is read as the same
declarations with the same to say about it, places aside. -/
theorem read_refill (source : Nat) {text : String} {range : Nat × Nat}
    (hrange : range ∈ Token.gaps 0 text.utf8ByteSize (Token.scan text)) :
    ∃ front gap back : String, text = front ++ gap ++ back ∧
      front.utf8ByteSize = range.1 ∧ (front ++ gap).utf8ByteSize = range.2 ∧
      ∀ filling : String, Token.IsSeparator filling.toList →
        let refilled := front ++ filling ++ back
        (Token.scan refilled).map (fun t ↦ (t.kind, t.text))
            = (Token.scan text).map (fun t ↦ (t.kind, t.text)) ∧
          (read source refilled).declarations.map Declaration.unplaced
            = (read source text).declarations.map Declaration.unplaced ∧
          (read source refilled).diagnostic.map Diagnostic.content
            = (read source text).diagnostic.map Diagnostic.content := by
  obtain ⟨front, gap, back, htext, hstart, hstop, hwords⟩ := Token.words_refill hrange
  refine ⟨front, gap, back, htext, hstart, hstop, fun filling hfilling ↦ ?_⟩
  have hsame := hwords filling hfilling
  have hkinds (text : String) : (Token.scan text).map (fun t ↦ (t.kind, t.text))
      = (Token.words text).map (fun t ↦ (t.kind, t.text)) := by
    rw [Token.words, List.map_map]
    rfl
  refine ⟨?_, ?_, ?_⟩
  · rw [hkinds, hkinds, hsame]
  · rw [read_declarations, read_declarations, declaredIn, declaredIn, hsame]
  · rw [read_diagnostic_content, read_diagnostic_content, hsame]

/-- The empty gap between a name and a brace that touch. -/
theorem read_refill_empty_gap :
    let text := "@Schema class A\x7b a: B \x7d"
    let filling := "\t// a comment\n"
    (15, 15) ∈ Token.gaps 0 text.utf8ByteSize (Token.scan text) ∧
      Token.IsSeparator filling.toList ∧
      ∃ front gap back : String, text = front ++ gap ++ back ∧
        front.utf8ByteSize = 15 ∧ (front ++ gap).utf8ByteSize = 15 ∧
        (read 0 (front ++ filling ++ back)).declarations.map Declaration.unplaced
          = (read 0 text).declarations.map Declaration.unplaced := by
  have hrange : (15, 15) ∈ Token.gaps 0 "@Schema class A\x7b a: B \x7d".utf8ByteSize
      (Token.scan "@Schema class A\x7b a: B \x7d") := by decide +kernel
  have hcomment := @Token.IsSpacing.comment " a comment".toList [] (by decide) .nil
  have hfilling : Token.IsSeparator "\t// a comment\n".toList :=
    ⟨.space (.inr (.inl rfl)) hcomment, '\t', rfl, .inr (.inl rfl)⟩
  obtain ⟨front, gap, back, htext, hstart, hstop, hread⟩ := read_refill 0 hrange
  exact ⟨hrange, hfilling, front, gap, back, htext, hstart, hstop, (hread _ hfilling).2.1⟩

end SchemaFile

end FieldPaths
