import FieldPaths.Proofs.Token.Order

/-!
# What the tokens of a text are

`Scans` says how a text is cut from the front. Here the pieces are put back to where they stand in
the text: of a token it is known what stands at its bytes and what behind them, and of the bytes
between two tokens that nothing stands there but white space and comments.

## Bytes and characters

A token is at a range of bytes and the scan goes by characters. The two meet in `StandsAt`: a
start is the number of bytes of the characters before it, so it lies between two characters, and no
two fronts of a text have the same number of bytes (`eq_of_byteCount_eq`). So what stands behind a
byte is determined, and a token that starts where another one ends starts with what follows that.
-/

namespace FieldPaths

/-! ## Spellings -/

namespace TokenKind

/-- How a keyword or a punctuation mark is written. -/
def spelling? : TokenKind → Option String
  | kwClass => some "class"
  | kwInterface => some "interface"
  | kwFn => some "fn"
  | kwFinal => some "final"
  | kwStatic => some "static"
  | .at => some "@"
  | lBrace => some "\x7b"
  | rBrace => some "\x7d"
  | lParen => some "("
  | rParen => some ")"
  | lAngle => some "<"
  | rAngle => some ">"
  | lBracket => some "["
  | rBracket => some "]"
  | comma => some ","
  | colon => some ":"
  | semicolon => some ";"
  | dot => some "."
  | ident => none
  | garbage => none

/-- The names that are keywords. -/
def keywords : List String := ["class", "interface", "fn", "final", "static"]

/-- The kinds of the tokens that are cut as names. -/
def ofNames : List TokenKind := [kwClass, kwInterface, kwFn, kwFinal, kwStatic, ident]

theorem spelling?_ofName {cs : List Char} {s : String} (h : (ofName cs).spelling? = some s) :
    cs = s.toList := by
  unfold ofName at h
  split_ifs at h <;> cases h <;> assumption

theorem spelling?_of_punctuation {c : Char} {kind : TokenKind}
    (h : ofPunctuation? c = some kind) : kind.spelling? = some (String.singleton c) := by
  rw [ofPunctuation?.eq_def] at h
  split at h <;> cases h <;> rfl

theorem spelling?_ne_singleton {c : Char} (h : ofPunctuation? c = none) (kind : TokenKind) :
    kind.spelling? ≠ some (String.singleton c) := by
  intro hkind
  have hchars : kind.spelling?.map String.toList = some [c] := by
    rw [hkind, Option.map_some, String.toList_singleton]
  cases kind <;> simp [spelling?] at hchars <;> subst hchars <;> cases h

theorem not_mem_keywords_of_ident {cs : List Char} (h : ofName cs = ident) :
    String.ofList cs ∉ keywords := by
  intro hmem
  obtain ⟨s, hs, heq⟩ : ∃ s ∈ keywords, s.toList = cs :=
    ⟨_, hmem, String.toList_ofList⟩
  subst heq
  revert s
  decide

theorem not_mem_ofNames_of_punctuation {c : Char} {kind : TokenKind}
    (h : ofPunctuation? c = some kind) : kind ∉ ofNames := by
  rw [ofPunctuation?.eq_def] at h
  split at h <;> cases h <;> decide

end TokenKind

namespace Token

/-- A letter, `_` or `$`, and then letters, digits, `_` and `$`. -/
def IsName (cs : List Char) : Prop :=
  ∃ c more, cs = c :: more ∧ (c.isAlpha = true ∨ c = '_' ∨ c = '$') ∧
    ∀ d ∈ more, d.isAlphanum = true ∨ d = '_' ∨ d = '$'

section Lexeme

variable {kind : TokenKind} {cs rest : List Char} (h : IsLexeme kind cs rest)

include h

theorem IsLexeme.spelled {s : String} (hs : kind.spelling? = some s) : cs = s.toList := by
  cases h with
  | name => exact TokenKind.spelling?_ofName hs
  | punctuation hc =>
    rw [TokenKind.spelling?_of_punctuation hc, Option.some.injEq] at hs
    rw [← hs, String.toList_singleton]
  | garbage => cases hs

theorem IsLexeme.isName (hkind : kind = .ident) :
    IsName cs ∧ String.ofList cs ∉ TokenKind.keywords := by
  cases h with
  | name hc hmore =>
    refine ⟨⟨_, _, rfl, isNameStart_iff.mp hc, fun d hd ↦ ?_⟩, ?_⟩
    · exact isNameContinue_iff.mp (hmore d hd)
    · exact TokenKind.not_mem_keywords_of_ident hkind
  | punctuation hc =>
    rw [hkind] at hc
    exact absurd (by decide) (TokenKind.not_mem_ofNames_of_punctuation hc)
  | garbage => cases hkind

theorem IsLexeme.whole (hkind : kind ∈ TokenKind.ofNames) :
    ∀ c ∈ rest.head?, isNameContinue c = false := by
  cases h with
  | name _ _ hrest => exact hrest
  | punctuation hc => exact absurd hkind (TokenKind.not_mem_ofNames_of_punctuation hc)
  | garbage => exact absurd hkind (by decide)

theorem IsLexeme.isGarbage (hkind : kind = .garbage) :
    IsGarbage cs rest ∧ startsGarbage rest = false := by
  cases h with
  | name =>
    unfold TokenKind.ofName at hkind
    split_ifs at hkind
  | punctuation hc =>
    rw [hkind, TokenKind.ofPunctuation?.eq_def] at hc
    split at hc <;> cases hc
  | garbage _ hrun hrest => exact ⟨hrun, hrest⟩

/-- What an unrecognized character does not start. -/
theorem IsLexeme.not_starts (hkind : kind = .garbage) {front back : List Char} {c : Char}
    (hcs : cs = front ++ c :: back) :
    ¬ (c.isAlpha = true ∨ c = '_' ∨ c = '$') ∧
      (∀ kind : TokenKind, kind.spelling? ≠ some (String.singleton c)) ∧
      ¬ (c = ' ' ∨ c = '\t' ∨ c = '\r' ∨ c = '\n' ∨ c = '\x0c') ∧
      ¬ (c = '/' ∧ (back ++ rest).head? = some '/') := by
  have hstarts := (h.isGarbage hkind).1 front c back hcs
  obtain ⟨hspace, hname, hpunctuation, hcomment⟩ := startsGarbage_cons.mp hstarts
  refine ⟨?_, TokenKind.spelling?_ne_singleton hpunctuation, ?_, ?_⟩
  · rw [← isNameStart_iff, hname]
    exact Bool.false_ne_true
  · rw [← isSpace_iff, hspace]
    exact Bool.false_ne_true
  · rw [← startsComment_cons, hcomment]
    exact Bool.false_ne_true

/-- No run of unrecognized characters starts behind another one. -/
theorem IsLexeme.ne_append (hkind : kind = .garbage) {kind' : TokenKind} {run rest' : List Char}
    (h' : IsLexeme kind' run rest') (hkind' : kind' = .garbage) : rest ≠ run ++ rest' := by
  rintro rfl
  obtain ⟨c, more, rfl⟩ := List.exists_cons_of_ne_nil h'.ne_nil
  have hstart := (h'.isGarbage hkind').1 [] c more rfl
  have hend := (h.isGarbage hkind).2
  rw [List.cons_append, hstart] at hend
  cases hend

end Lexeme

/-! ## Places in a text -/

theorem eq_nil_of_byteCount_eq {front more : List Char}
    (h : byteCount (front ++ more) = byteCount front) : more = [] := by
  by_contra hne
  have hpos : 0 < byteCount more := byteCount_pos hne
  rw [byteCount_append] at h
  omega

/-- Two fronts of a text with the same number of bytes are the same. -/
theorem eq_of_byteCount_eq {front front' back back' : List Char}
    (h : front ++ back = front' ++ back') (hcount : byteCount front = byteCount front') :
    front = front' := by
  rcases List.append_eq_append_iff.mp h with ⟨more, rfl, -⟩ | ⟨more, rfl, -⟩
  · rw [eq_nil_of_byteCount_eq hcount.symm, List.append_nil]
  · rw [eq_nil_of_byteCount_eq hcount, List.append_nil]

/-- The characters `cs` stand in the text from the byte `start` on, and `after` behind them. -/
def StandsAt (text : String) (start : Nat) (cs after : List Char) : Prop :=
  ∃ before, text.toList = before ++ (cs ++ after) ∧ byteCount before = start

section StandsAt

variable {text : String} {start : Nat} {cs ds after after' : List Char}

/-- What stands from a byte on is determined. -/
theorem StandsAt.unique (h : StandsAt text start cs after) (h' : StandsAt text start ds after') :
    cs ++ after = ds ++ after' := by
  obtain ⟨before, htext, hstart⟩ := h
  obtain ⟨before', htext', hstart'⟩ := h'
  have hboth := htext.symm.trans htext'
  obtain rfl := eq_of_byteCount_eq hboth (hstart.trans hstart'.symm)
  exact List.append_cancel_left hboth

theorem StandsAt.behind (h : StandsAt text start cs (ds ++ after)) :
    StandsAt text (start + byteCount cs) ds after := by
  obtain ⟨before, htext, rfl⟩ := h
  exact ⟨before ++ cs, by rw [htext, List.append_assoc], byteCount_append ..⟩

end StandsAt

variable {offset finish : Nat} {cs front rest : List Char} {tokens : List Token} {t : Token}

/-! ## Between the tokens -/

/-- White space and comments, where `after` follows. A comment goes up to a line feed or to the
end of the text. -/
inductive IsTrivia (after : List Char) : List Char → Prop
  | nil : IsTrivia after []
  | space {c : Char} {more : List Char} (hc : c = ' ' ∨ c = '\t' ∨ c = '\r' ∨ c = '\n' ∨ c = '\x0c')
      (hmore : IsTrivia after more) : IsTrivia after (c :: more)
  | comment {cs more : List Char} (hcs : '\n' ∉ cs) (hend : ∀ c ∈ (more ++ after).head?, c = '\n')
      (hmore : IsTrivia after more) : IsTrivia after ('/' :: '/' :: cs ++ more)

/-- The ranges of bytes before, between and after some tokens of a text that goes from one byte to
another. -/
def gaps (start finish : Nat) : List Token → List (Nat × Nat)
  | [] => [(start, finish)]
  | t :: more => (start, t.start) :: gaps t.stop finish more

/-- Nothing stands in the range but white space and comments, where `cs` is the text from the byte
`offset` on. -/
def IsGap (offset : Nat) (cs : List Char) (range : Nat × Nat) : Prop :=
  ∃ before gap after, cs = before ++ (gap ++ after) ∧ offset + byteCount before = range.1 ∧
    range.1 + byteCount gap = range.2 ∧ IsTrivia after gap

theorem IsGap.move {range : Nat × Nat} (h : IsGap (offset + byteCount front) rest range) :
    IsGap offset (front ++ rest) range := by
  obtain ⟨before, gap, after, rfl, hstart, hstop, htrivia⟩ := h
  refine ⟨front ++ before, gap, after, by rw [List.append_assoc], ?_, hstop, htrivia⟩
  rw [byteCount_append, ← hstart, Nat.add_assoc]

/-- What is skipped belongs to the range that starts behind it. -/
theorem IsGap.skip {stop : Nat}
    (h : IsGap (offset + byteCount front) rest (offset + byteCount front, stop))
    (hfront : ∀ gap after, rest = gap ++ after → IsTrivia after gap → IsTrivia after (front ++ gap)) :
    IsGap offset (front ++ rest) (offset, stop) := by
  obtain ⟨before, gap, after, rfl, hstart, hstop, htrivia⟩ := h
  have hbefore : before = [] := by
    by_contra hne
    have hpos := byteCount_pos hne
    dsimp only at hstart
    omega
  subst hbefore
  refine ⟨[], front ++ gap, after, ?_, rfl, ?_, hfront gap after rfl htrivia⟩
  · rw [List.nil_append, List.nil_append, List.append_assoc]
  · rw [byteCount_append]
    dsimp only at hstop ⊢
    omega

/-- Where something is skipped, the ranges only start earlier. -/
theorem forall_gaps_skip (h : ∀ range ∈ gaps (offset + byteCount front) finish tokens,
      IsGap (offset + byteCount front) rest range)
    (hfront : ∀ gap after, rest = gap ++ after → IsTrivia after gap → IsTrivia after (front ++ gap)) :
    ∀ range ∈ gaps offset finish tokens, IsGap offset (front ++ rest) range := by
  cases tokens with
  | nil =>
    intro range hrange
    obtain rfl := List.mem_singleton.mp hrange
    exact (h _ (List.mem_singleton.mpr rfl)).skip hfront
  | cons t more =>
    intro range hrange
    rcases List.mem_cons.mp hrange with rfl | hrange
    · exact (h _ List.mem_cons_self).skip hfront
    · exact (h _ (List.mem_cons_of_mem _ hrange)).move

theorem Scans.isGap (h : Scans offset cs tokens) :
    ∀ range ∈ gaps offset (offset + byteCount cs) tokens, IsGap offset cs range := by
  induction h with
  | @nil offset =>
    intro range hrange
    obtain rfl := List.mem_singleton.mp hrange
    exact ⟨[], [], [], rfl, rfl, rfl, .nil⟩
  | @space offset c rest tokens hc _ ih =>
    rw [← List.singleton_append, byteCount_append, ← Nat.add_assoc]
    exact forall_gaps_skip ih fun gap after _ htrivia ↦ .space (isSpace_iff.mp hc) htrivia
  | @comment offset cs rest tokens hcs hrest _ ih =>
    rw [byteCount_append, ← Nat.add_assoc]
    exact forall_gaps_skip ih fun gap after heq htrivia ↦ .comment hcs (heq ▸ hrest) htrivia
  | @token offset kind cs rest tokens hcs _ ih =>
    rw [byteCount_append, ← Nat.add_assoc]
    intro range hrange
    rcases List.mem_cons.mp hrange with rfl | hrange
    · exact ⟨[], [], cs ++ rest, rfl, rfl, rfl, .nil⟩
    · refine (ih range ?_).move
      rwa [stop, utf8ByteSize_ofList] at hrange

/-! ## Exactness -/

/-- What the tokens of a text are. -/
structure IsScan (text : String) (tokens : List Token) : Prop where
  /-- A token has bytes of its own in the text. -/
  bounds : ∀ t ∈ tokens, t.start < t.stop ∧ t.stop ≤ text.utf8ByteSize
  /-- No byte is lost where a place is kept in 32 bits, as long as the text has less than 4 GiB. -/
  narrow : text.utf8ByteSize < 2 ^ 32 → ∀ t ∈ tokens,
    t.start.toUInt32.toNat = t.start ∧ t.stop.toUInt32.toNat = t.stop
  /-- Its text is what stands there, between two characters. -/
  stands : ∀ t ∈ tokens, ∃ after, StandsAt text t.start t.text.toList after
  /-- Tokens come in their order and do not overlap. -/
  ordered : tokens.Pairwise fun s t ↦ s.stop ≤ t.start
  /-- Before, between and after them there are white space and comments only. -/
  trivia : ∀ range ∈ gaps 0 text.utf8ByteSize tokens, ∃ gap after,
    StandsAt text range.1 gap after ∧ range.1 + byteCount gap = range.2 ∧ IsTrivia after gap
  /-- A keyword or a punctuation mark is spelled as it should be. -/
  spelled : ∀ t ∈ tokens, ∀ s, t.kind.spelling? = some s → t.text = s
  /-- Any other name is none of the keywords. -/
  name : ∀ t ∈ tokens, t.kind = .ident → IsName t.text.toList ∧ t.text ∉ TokenKind.keywords
  /-- No name goes on behind its token. -/
  whole : ∀ t ∈ tokens, t.kind ∈ TokenKind.ofNames → ∀ after,
    StandsAt text t.start t.text.toList after →
      ∀ c ∈ after.head?, ¬ (c.isAlphanum = true ∨ c = '_' ∨ c = '$')
  /-- No unrecognized character starts a name, a mark, white space or a comment. -/
  garbage : ∀ t ∈ tokens, t.kind = .garbage → ∀ after, StandsAt text t.start t.text.toList after →
    ∀ front c back, t.text.toList = front ++ c :: back →
      ¬ (c.isAlpha = true ∨ c = '_' ∨ c = '$') ∧
      (∀ kind : TokenKind, kind.spelling? ≠ some (String.singleton c)) ∧
      ¬ (c = ' ' ∨ c = '\t' ∨ c = '\r' ∨ c = '\n' ∨ c = '\x0c') ∧
      ¬ (c = '/' ∧ (back ++ after).head? = some '/')
  /-- A run of unrecognized characters is one token. -/
  apart : ∀ s ∈ tokens, ∀ t ∈ tokens, s.kind = .garbage → t.kind = .garbage → s.stop ≠ t.start

section

variable {text : String}

theorem exists_standsAt_of_mem_scan (ht : t ∈ scan text) :
    ∃ after, StandsAt text t.start t.text.toList after ∧ IsLexeme t.kind t.text.toList after := by
  obtain ⟨before, after, htext, hstart, hlexeme⟩ :=
    (scans_scan text).isPlaced t ht
  exact ⟨after, ⟨before, htext, by rw [hstart, Nat.zero_add]⟩, hlexeme⟩

/-- What stands behind a token is determined, so it is a lexeme whatever is found there. -/
theorem isLexeme_of_standsAt (ht : t ∈ scan text) {after : List Char}
    (h : StandsAt text t.start t.text.toList after) : IsLexeme t.kind t.text.toList after := by
  obtain ⟨after', h', hlexeme⟩ := exists_standsAt_of_mem_scan ht
  rwa [List.append_cancel_left (h.unique h')]

end

/-- **The scan is exact.** -/
theorem scan_exact (text : String) : IsScan text (scan text) where
  bounds t := scan_bounds
  narrow := by
    intro hsize t ht
    obtain ⟨hlt, hle⟩ := scan_bounds ht
    have hstop : t.stop < UInt32.size := lt_of_le_of_lt hle hsize
    exact ⟨UInt32.toNat_ofNat_of_lt' (hlt.trans hstop), UInt32.toNat_ofNat_of_lt' hstop⟩
  stands := by
    intro t ht
    obtain ⟨after, h, -⟩ := exists_standsAt_of_mem_scan ht
    exact ⟨after, h⟩
  ordered := (scans_scan text).pairwise
  trivia := by
    intro range hrange
    rw [← byteCount_toList, ← Nat.zero_add (byteCount _)] at hrange
    obtain ⟨before, gap, after, htext, hstart, hstop, htrivia⟩ :=
      (scans_scan text).isGap range hrange
    exact ⟨gap, after, ⟨before, htext, by rw [← hstart, Nat.zero_add]⟩, hstop, htrivia⟩
  spelled := by
    intro t ht s hs
    obtain ⟨after, -, h⟩ := exists_standsAt_of_mem_scan ht
    exact String.toList_inj.mp (h.spelled hs)
  name := by
    intro t ht hkind
    obtain ⟨after, -, h⟩ := exists_standsAt_of_mem_scan ht
    have hname := h.isName hkind
    rwa [String.ofList_toList] at hname
  whole := by
    intro t ht hkind after h c hc hname
    have hend := (isLexeme_of_standsAt ht h).whole hkind c hc
    rw [isNameContinue_iff.mpr hname] at hend
    cases hend
  garbage := by
    intro t ht hkind after h front c back htext
    exact (isLexeme_of_standsAt ht h).not_starts hkind htext
  apart := by
    intro s hs t ht hskind htkind htouch
    obtain ⟨after, hs', hslexeme⟩ := exists_standsAt_of_mem_scan hs
    obtain ⟨after', ht', htlexeme⟩ := exists_standsAt_of_mem_scan ht
    have hbehind : StandsAt text s.stop [] after := by
      rw [stop, ← byteCount_toList]
      exact hs'.behind
    -- what follows the first run would start with the second one
    have heq : after = t.text.toList ++ after' := hbehind.unique (htouch ▸ ht')
    exact hslexeme.ne_append hskind htlexeme htkind heq

end Token

end FieldPaths
