import FieldPaths.Proofs.Token.Scanning

/-!
# Runs of unrecognized characters

The scan finds unrecognized characters one by one and keeps the last run of them back, because the
next one may belong to it. What is kept back says only where the run starts and where it ends, so
whether the next character belongs to it is read off a byte: it does if it starts where the run
ends.

## The invariant

When a run is kept back that ends at `stop`, what is left to be found is found in the text from
`stop` on. If that text starts with an unrecognized character, it is found at `stop` and makes the
run longer. If it does not, then something is passed over or is a token of its own before another
unrecognized character is found, and either takes a byte at least: so no finding starts at `stop`
that could make the run longer (`startsGarbage_of_findings`), and the run is a token as it is.

Hence the run is as long as it goes, and the scan comes to what is cut off with runs taken whole
(`scan_eq_scanFrom`).
-/

namespace FieldPaths

namespace Token

variable {offset : Nat} {cs rest : List Char} {tokens : List Token} {t : Token}

/-! ## What is found -/

theorem findings_nil (offset : Nat) : findings offset [] = [] := by
  rw [findings]

theorem findings_space {c : Char} (hc : isSpace c = true) (rest : List Char) :
    findings offset (c :: rest) = findings (offset + byteCount [c]) rest := by
  rw [findings, if_pos hc]
  rfl

theorem findings_comment {cs : List Char} (hcs : '\n' ∉ cs) (hrest : ∀ c ∈ rest.head?, c = '\n') :
    findings offset ('/' :: '/' :: cs ++ rest)
      = findings (offset + byteCount ('/' :: '/' :: cs)) rest := by
  rw [List.cons_append, findings, if_neg (by decide), if_pos (startsComment_cons.mpr ⟨rfl, rfl⟩)]
  dsimp only
  rw [takeWhile_comment hcs hrest, ← List.cons_append, List.drop_left]

theorem findings_name {c : Char} {more : List Char} (hc : isNameStart c = true)
    (hmore : ∀ d ∈ more, isNameContinue d = true)
    (hrest : ∀ d ∈ rest.head?, isNameContinue d = false) :
    findings offset (c :: more ++ rest)
      = ⟨some (.ofName (c :: more)), offset, offset + byteCount (c :: more)⟩ ::
          findings (offset + byteCount (c :: more)) rest := by
  rw [List.cons_append, findings, isSpace_of_isNameStart hc,
    startsComment_of_ne (slash_ne_of_isNameStart hc), if_pos hc]
  simp only [Bool.false_eq_true, if_false]
  rw [takeWhile_append_eq hmore hrest, ← List.cons_append, List.drop_left]

theorem findings_punctuation {c : Char} {kind : TokenKind}
    (hc : TokenKind.ofPunctuation? c = some kind) (rest : List Char) :
    findings offset (c :: rest)
      = ⟨some kind, offset, offset + byteCount [c]⟩ :: findings (offset + byteCount [c]) rest := by
  obtain ⟨hspace, hname, hslash⟩ := class_of_punctuation hc
  rw [findings, hspace, startsComment_of_ne hslash, hname, hc]
  rfl

theorem findings_garbage {c : Char} (hc : startsGarbage (c :: rest) = true) :
    findings offset (c :: rest)
      = ⟨none, offset, offset + byteCount [c]⟩ :: findings (offset + byteCount [c]) rest := by
  obtain ⟨hspace, hname, hkind, hcomment⟩ := startsGarbage_cons.mp hc
  rw [findings, hspace, hcomment, hname, hkind]
  rfl

/-- Nothing is found before the text. -/
theorem le_start_of_mem_findings (offset : Nat) (cs : List Char) :
    ∀ f ∈ findings offset cs, offset ≤ f.range.start := by
  fun_induction findings offset cs with
  | case1 => nofun
  | case2 offset c rest _ ih => exact fun f hf ↦ Nat.le_of_add_right_le (ih f hf)
  | case3 offset c rest _ _ comment _ ih => exact fun f hf ↦ Nat.le_of_add_right_le (ih f hf)
  | case4 offset c rest _ _ _ name _ ih =>
    exact List.forall_mem_cons.mpr ⟨Nat.le_refl _, fun f hf ↦ Nat.le_of_add_right_le (ih f hf)⟩
  | case5 offset c rest _ _ _ ih =>
    exact List.forall_mem_cons.mpr ⟨Nat.le_refl _, fun f hf ↦ Nat.le_of_add_right_le (ih f hf)⟩

/-- An unrecognized character that is found at the start of the text is its first one. -/
theorem startsGarbage_of_findings {range : ByteRange} {more : List Finding}
    (h : findings offset cs = ⟨none, range⟩ :: more) (hstart : range.start = offset) :
    startsGarbage cs = true := by
  have hbehind {count : Nat} (hcount : 0 < count) (rest : List Char) :
      findings (offset + count) rest ≠ ⟨none, range⟩ :: more := by
    intro hfindings
    have hle := le_start_of_mem_findings (offset + count) rest ⟨none, range⟩
      (hfindings ▸ List.mem_cons_self)
    dsimp only at hle
    omega
  cases cs with
  | nil =>
    rw [findings_nil] at h
    cases h
  | cons c rest =>
    rw [findings] at h
    split at h
    · exact absurd h (hbehind c.utf8Size_pos rest)
    · rename_i hspace
      split at h
      · exact absurd h (hbehind (byteCount_pos (List.cons_ne_nil _ _)) _)
      · rename_i hcomment
        split at h
        · cases h
        · rename_i hname
          have hkind := congrArg Finding.kind? (List.cons_eq_cons.mp h).1
          exact startsGarbage_cons.mpr ⟨Bool.eq_false_iff.mpr hspace, Bool.eq_false_iff.mpr hname,
            hkind, Bool.eq_false_iff.mpr hcomment⟩

/-! ## Runs are as long as they go -/

section

variable {run range : ByteRange}

theorem coalesce_touch (h : run.stop = range.start) (more : List Finding) :
    coalesce (some run) (⟨none, range⟩ :: more)
      = coalesce (some { run with stop := range.stop }) more := by
  rw [coalesce, Option.filter_some, if_pos (beq_iff_eq.mpr h)]

theorem coalesce_apart (h : run.stop ≠ range.start) (more : List Finding) :
    coalesce (some run) (⟨none, range⟩ :: more)
      = (.garbage, run) :: coalesce (some range) more := by
  rw [coalesce, Option.filter_some, if_neg (mt beq_iff_eq.mp h)]
  rfl

end

/-- A run ends where the next character is not unrecognized. -/
theorem coalesce_stop {run : ByteRange} (hrest : startsGarbage rest = false) :
    coalesce (some run) (findings run.stop rest)
      = (.garbage, run) :: coalesce none (findings run.stop rest) := by
  cases hfindings : findings run.stop rest with
  | nil => rfl
  | cons first more =>
    obtain ⟨_ | kind, range⟩ := first
    · refine coalesce_apart (fun htouch ↦ ?_) more
      rw [startsGarbage_of_findings hfindings htouch.symm] at hrest
      cases hrest
    · rfl

/-- A run goes on with the unrecognized characters that come next. -/
theorem coalesce_run {run : List Char} (hrun : IsGarbage run rest)
    (hrest : startsGarbage rest = false) (start stop : Nat) :
    coalesce (some ⟨start, stop⟩) (findings stop (run ++ rest))
      = (.garbage, ⟨start, stop + byteCount run⟩) ::
          coalesce none (findings (stop + byteCount run) rest) := by
  induction run generalizing stop with
  | nil => exact coalesce_stop hrest
  | cons c run ih =>
    have hmore : IsGarbage run rest := fun before d after h ↦
      hrun (c :: before) d after (by rw [h, List.cons_append])
    have hstep := ih hmore (stop + byteCount [c])
    rw [Nat.add_assoc, ← byteCount_append] at hstep
    rw [List.cons_append, findings_garbage (hrun [] c run rfl), coalesce_touch rfl]
    exact hstep

/-- The kind of a token and the bytes it is at. -/
def placed (t : Token) : TokenKind × ByteRange := (t.kind, ⟨t.start, t.stop⟩)

theorem placed_ofList (kind : TokenKind) (offset : Nat) (cs : List Char) :
    placed ⟨kind, offset, String.ofList cs⟩ = (kind, ⟨offset, offset + byteCount cs⟩) := by
  rw [placed, stop, utf8ByteSize_ofList]

theorem coalesce_lexeme {kind : TokenKind} (h : IsLexeme kind cs rest) :
    coalesce none (findings offset (cs ++ rest)) = placed ⟨kind, offset, String.ofList cs⟩ ::
      coalesce none (findings (offset + byteCount cs) rest) := by
  rw [placed_ofList]
  cases h with
  | name hc hmore hrest =>
    rw [findings_name hc hmore hrest]
    rfl
  | punctuation hc =>
    rw [List.singleton_append, findings_punctuation hc]
    rfl
  | garbage hne hrun hrest =>
    obtain ⟨c, run, rfl⟩ := List.exists_cons_of_ne_nil hne
    have hmore : IsGarbage run rest := fun before d after h ↦
      hrun (c :: before) d after (by rw [h, List.cons_append])
    have hgoes := coalesce_run hmore hrest offset (offset + byteCount [c])
    rw [Nat.add_assoc, ← byteCount_append] at hgoes
    rw [List.cons_append, findings_garbage (hrun [] c run rfl)]
    exact hgoes

/-- Findings are made into the tokens that are cut off. -/
theorem Scans.coalesce_findings (h : Scans offset cs tokens) :
    coalesce none (findings offset cs) = tokens.map placed := by
  induction h with
  | nil =>
    rw [findings_nil]
    rfl
  | space hc _ ih => rw [findings_space hc, ih]
  | comment hcs hrest _ ih => rw [findings_comment hcs hrest, ih]
  | token hcs _ ih => rw [coalesce_lexeme hcs, ih, List.map_cons]

/-! ## Tokens in their places -/

/-- The token is what stands at its bytes, where `cs` is the text from the byte `offset` on. -/
def IsPlaced (offset : Nat) (cs : List Char) (t : Token) : Prop :=
  ∃ before after, cs = before ++ (t.text.toList ++ after) ∧ t.start = offset + byteCount before ∧
    IsLexeme t.kind t.text.toList after

theorem IsPlaced.move {front : List Char} (h : IsPlaced (offset + byteCount front) rest t) :
    IsPlaced offset (front ++ rest) t := by
  obtain ⟨before, after, rfl, hstart, hlexeme⟩ := h
  refine ⟨front ++ before, after, by rw [List.append_assoc], ?_, hlexeme⟩
  rw [hstart, byteCount_append, Nat.add_assoc]

theorem Scans.isPlaced (h : Scans offset cs tokens) : ∀ t ∈ tokens, IsPlaced offset cs t := by
  induction h with
  | nil => nofun
  | @space offset c rest tokens _ _ ih =>
    exact fun t ht ↦ @IsPlaced.move offset rest t [c] (ih t ht)
  | comment _ _ _ ih => exact fun t ht ↦ (ih t ht).move
  | @token offset kind cs rest tokens hcs _ ih =>
    intro t ht
    rcases List.mem_cons.mp ht with rfl | ht
    · refine ⟨[], rest, ?_, rfl, ?_⟩
      · rw [String.toList_ofList, List.nil_append]
      · rwa [String.toList_ofList]
    · exact (ih t ht).move

/-! ## The text of a token -/

theorem dropBytes_zero (cs : List Char) : dropBytes 0 cs = cs := by
  cases cs <;> rfl

theorem takeBytes_zero (cs : List Char) : takeBytes 0 cs = [] := by
  cases cs <;> rfl

theorem dropBytes_append (before rest : List Char) :
    dropBytes (byteCount before) (before ++ rest) = rest := by
  induction before with
  | nil => exact dropBytes_zero rest
  | cons c before ih =>
    have := c.utf8Size_pos
    rw [List.cons_append, dropBytes, byteCount_cons, if_neg (by omega), Nat.add_sub_cancel_left, ih]

theorem takeBytes_append (cs rest : List Char) : takeBytes (byteCount cs) (cs ++ rest) = cs := by
  induction cs with
  | nil => exact takeBytes_zero rest
  | cons c cs ih =>
    have := c.utf8Size_pos
    rw [List.cons_append, takeBytes, byteCount_cons, if_neg (by omega), Nat.add_sub_cancel_left, ih]

/-- What stands at the bytes of a token is its text. -/
theorem IsPlaced.textAt_eq {text : String} (h : IsPlaced 0 text.toList t) :
    textAt text ⟨t.start, t.stop⟩ = t.text := by
  obtain ⟨before, after, htext, hstart, -⟩ := h
  rw [Nat.zero_add] at hstart
  have hsize : t.stop - t.start = byteCount t.text.toList := by
    rw [stop, byteCount_toList, Nat.add_sub_cancel_left]
  rw [textAt, hsize, hstart, htext, dropBytes_append, takeBytes_append, String.ofList_toList]

/-! ## The scan -/

/-- The scan comes to what is cut off with runs taken whole. -/
theorem scan_eq_scanFrom (text : String) : scan text = scanFrom 0 text.toList := by
  have hscans := scans_scanFrom 0 text.toList
  rw [scan, hscans.coalesce_findings, List.map_map]
  refine (List.map_congr_left fun t ht ↦ ?_).trans (List.map_id _)
  change (⟨t.kind, t.start, textAt text ⟨t.start, t.stop⟩⟩ : Token) = t
  rw [(hscans.isPlaced t ht).textAt_eq]

theorem scan_empty : scan "" = [] := by
  rw [scan_eq_scanFrom, String.toList_empty, scanFrom]

theorem scans_scan (text : String) : Scans 0 text.toList (scan text) := by
  rw [scan_eq_scanFrom]
  exact scans_scanFrom 0 text.toList

end Token

end FieldPaths
