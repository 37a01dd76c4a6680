import FieldPaths.Proofs.Grammar.Locations
import FieldPaths.Proofs.Spacing

/-!
# Completed declarations

A declaration is complete with the brace that closes it. From there on nothing is looked at for its
sake: neither by the scan, to which a brace is a token whatever stands behind it, nor by the rules,
which know a declaration by its own tokens. So a text can be cut behind the last declaration that is
read from it, and it can go on there with anything else.

The brace matters. A name would be longer with a letter behind it, a run of unrecognized characters
could take in more of them, and a `/` may be half of what starts a comment. Of none of this kind is
the token a cut is made behind, but the tokens in front of it can be; they are kept apart from what
comes by the tokens after them (`IsCutOff.token`).
-/

namespace FieldPaths

/-! ## Cuts behind a mark -/

namespace Token

/-- The front of a text is cut into the tokens whatever follows it, and it is seen in the front
whether it starts a comment. -/
structure IsCutOff (offset : Nat) (front : List Char) (tokens : List Token) : Prop where
  ne_nil : front ≠ []
  cuts : ∀ rest, scanFrom offset (front ++ rest)
    = tokens ++ scanFrom (offset + byteCount front) rest
  comment : ∀ rest, startsComment (front ++ rest) = startsComment front

variable {offset : Nat} {c : Char} {kind : TokenKind} {cs front rest : List Char}
  {tokens before after : List Token} {t : Token}

/-- Whether a character is unrecognized is seen by it and the next one. -/
theorem startsGarbage_congr {ds es : List Char} (h : ds.head? = es.head?) :
    startsGarbage (c :: ds) = startsGarbage (c :: es) := by
  rw [Bool.eq_iff_iff, startsGarbage_cons, startsGarbage_cons, Bool.eq_false_iff, Bool.eq_false_iff,
    Bool.eq_false_iff, Bool.eq_false_iff, ne_eq, ne_eq, ne_eq, ne_eq, startsComment_cons,
    startsComment_cons, h]

/-- A token is one whatever follows what is behind it. -/
theorem IsLexeme.of_front (h : IsLexeme kind cs (front ++ rest)) (hne : front ≠ [])
    (hcomment : ∀ rest, startsComment (front ++ rest) = startsComment front) (rest' : List Char) :
    IsLexeme kind cs (front ++ rest') := by
  obtain ⟨c, front, rfl⟩ := List.exists_cons_of_ne_nil hne
  cases h with
  | name hc hmore hrest => exact .name hc hmore hrest
  | punctuation hc => exact .punctuation hc
  | garbage hrun hgarbage hrest =>
    refine .garbage hrun (fun before d after hcs ↦ ?_) ?_
    · rw [← hgarbage before d after hcs]
      apply startsGarbage_congr
      -- the next character is in the run or the first one behind it
      cases after with
      | nil => rfl
      | cons e after => rfl
    · rw [List.cons_append, startsGarbage, ← List.cons_append, hcomment] at hrest ⊢
      exact hrest

theorem IsCutOff.mark (hc : TokenKind.ofPunctuation? c = some kind) :
    IsCutOff offset [c] [⟨kind, offset, String.ofList [c]⟩] where
  ne_nil := List.cons_ne_nil c []
  cuts rest := scanFrom_lexeme (.punctuation hc)
  comment rest := by
    have hslash := (class_of_punctuation hc).2.2
    exact (startsComment_of_ne hslash _).trans (startsComment_of_ne hslash _).symm

theorem IsCutOff.space (hc : isSpace c = true)
    (h : IsCutOff (offset + byteCount [c]) front tokens) : IsCutOff offset (c :: front) tokens where
  ne_nil := List.cons_ne_nil c front
  cuts rest := by
    rw [List.cons_append, scanFrom_space hc, h.cuts, Nat.add_assoc, ← byteCount_append,
      List.singleton_append]
  comment rest := by
    have hslash := slash_ne_of_isSpace hc
    exact (startsComment_of_ne hslash _).trans (startsComment_of_ne hslash _).symm

theorem IsCutOff.skip (hcs : '\n' ∉ cs) (hfront : ∀ c ∈ (front ++ rest).head?, c = '\n')
    (h : IsCutOff (offset + byteCount ('/' :: '/' :: cs)) front tokens) :
    IsCutOff offset ('/' :: '/' :: cs ++ front) tokens where
  ne_nil := List.cons_ne_nil _ _
  cuts rest' := by
    have hend : ∀ c ∈ (front ++ rest').head?, c = '\n' := by
      obtain ⟨c, front, rfl⟩ := List.exists_cons_of_ne_nil h.ne_nil
      exact hfront
    rw [List.append_assoc, scanFrom_comment hcs hend, h.cuts, Nat.add_assoc, ← byteCount_append]
  comment _ := rfl

theorem IsCutOff.token (hcs : IsLexeme kind cs (front ++ rest))
    (h : IsCutOff (offset + byteCount cs) front tokens) :
    IsCutOff offset (cs ++ front) (⟨kind, offset, String.ofList cs⟩ :: tokens) := by
  have hlexeme (rest : List Char) : IsLexeme kind cs (front ++ rest) :=
    hcs.of_front h.ne_nil h.comment rest
  have hcomment (rest : List Char) : startsComment (cs ++ front ++ rest) = false := by
    rw [List.append_assoc]
    exact (hlexeme rest).startsComment_eq_false
  refine ⟨List.append_ne_nil_of_left_ne_nil hcs.ne_nil front, fun rest ↦ ?_, fun rest ↦ ?_⟩
  · rw [List.append_assoc, scanFrom_lexeme (hlexeme rest), h.cuts, Nat.add_assoc,
      ← byteCount_append, List.cons_append]
  · rw [hcomment, startsComment_front (hcomment rest)]

/-- A text can be cut behind any punctuation mark in it. -/
theorem Scans.cutOff (h : Scans offset cs (before ++ t :: after))
    (ht : TokenKind.ofPunctuation? c = some t.kind) :
    ∃ front rest, cs = front ++ rest ∧ offset + byteCount front = t.stop ∧
      IsCutOff offset front (before ++ [t]) := by
  generalize htokens : before ++ t :: after = tokens at h
  induction h generalizing before with
  | nil => simp at htokens
  | @space offset d rest tokens hd _ ih =>
    obtain ⟨front, rest, rfl, hstop, hcut⟩ := ih htokens
    refine ⟨[d] ++ front, rest, rfl, ?_, .space hd hcut⟩
    rw [byteCount_append, ← Nat.add_assoc, hstop]
  | @comment offset cs rest tokens hcs hend _ ih =>
    obtain ⟨front, rest, rfl, hstop, hcut⟩ := ih htokens
    refine ⟨'/' :: '/' :: cs ++ front, rest, (List.append_assoc ..).symm, ?_, .skip hcs hend hcut⟩
    rw [byteCount_append, ← Nat.add_assoc, hstop]
  | @token offset kind cs rest tokens hcs _ ih =>
    cases before with
    | nil =>
      -- the mark is a character by itself, and the cut is right behind it
      obtain ⟨rfl, rfl⟩ := List.cons.inj htokens
      have hmark : cs = [c] := by
        rw [hcs.spelled (TokenKind.spelling?_of_punctuation ht), String.toList_singleton]
      subst hmark
      refine ⟨[c], rest, rfl, ?_, .mark ht⟩
      rw [stop, utf8ByteSize_ofList]
    | cons first before =>
      obtain ⟨rfl, hmore⟩ := List.cons.inj htokens
      obtain ⟨front, rest, rfl, hstop, hcut⟩ := ih hmore
      refine ⟨cs ++ front, rest, (List.append_assoc ..).symm, ?_, .token hcs hcut⟩
      rw [byteCount_append, ← Nat.add_assoc, hstop]

end Token

/-! ## The declarations that are kept -/

namespace Grammar

variable {source : Nat}

/-- The first declarations that the tokens derive, and the byte behind the brace that closes the
last of them. Without a declaration it is the first byte of all. -/
inductive CompletedAt (source : Nat) : List Token → List (Declaration Span) → Nat → Prop
  | nil {tokens : List Token} : CompletedAt source tokens [] 0
  | concat {fs ds left : List Token} {rbrace : Token} {decls : List (Declaration Span)}
      {decl : Declaration Span} (hdecls : IsFile source fs decls)
      (hdecl : IsDeclaration source (ds ++ [rbrace]) decl) (hrbrace : rbrace.kind = .rBrace) :
      CompletedAt source (fs ++ (ds ++ rbrace :: left)) (decls ++ [decl]) rbrace.stop

/-- What a file derives from ends with the brace of its last declaration. -/
theorem IsFile.eq_nil_or_concat {ts : List Token} {decls : List (Declaration Span)}
    (h : IsFile source ts decls) : ts = [] ∧ decls = [] ∨ ∃ fs ds rbrace decls' decl,
      ts = fs ++ (ds ++ [rbrace]) ∧ decls = decls' ++ [decl] ∧ IsFile source fs decls' ∧
        IsDeclaration source (ds ++ [rbrace]) decl ∧ rbrace.kind = .rBrace := by
  induction h with
  | nil => exact .inl ⟨rfl, rfl⟩
  | @cons ts more decl decls hdecl hmore ih =>
    right
    rcases ih with ⟨rfl, rfl⟩ | ⟨fs, ds, rbrace, decls', last, rfl, rfl, hfs, hlast, hrbrace⟩
    · obtain @⟨hs, ms, kind, name, brace, rbrace, names, members, hhead, hmembers, hrbrace⟩ := hdecl
      refine ⟨[], hs ++ ms, rbrace, [], _, ?_, rfl, .nil, ?_, hrbrace⟩
      · simp
      · rw [List.append_assoc]
        exact .mk hhead hmembers hrbrace
    · exact ⟨ts ++ fs, ds, rbrace, decl :: decls', last, by simp, rfl, .cons hdecl hfs, hlast, hrbrace⟩

/-- The tokens that declarations derive from are determined by what the declarations are. -/
theorem IsFile.eq_of_append {ts us left left' : List Token} {decls : List (Declaration Span)}
    (h : IsFile source ts decls) (h' : IsFile source us decls) (heq : ts ++ left = us ++ left') :
    ts = us := by
  -- what is read after the declarations is no declaration more
  have hnil {ts more : List Token} (h : IsFile source ts decls)
      (h' : IsFile source (ts ++ more) decls) : more = [] := by
    have hread := (isFile_iff ..).mp h'
    rw [declarations_append h] at hread
    obtain ⟨hdecls, hfault⟩ := Prod.mk.inj hread
    have hmore : IsFile source more [] :=
      (isFile_iff ..).mpr (Prod.ext (List.append_right_eq_self.mp hdecls) hfault)
    cases hmore
    rfl
  rcases List.append_eq_append_iff.mp heq with ⟨more, rfl, -⟩ | ⟨more, rfl, -⟩
  · rw [hnil h h', List.append_nil]
  · rw [hnil h' h, List.append_nil]

theorem IsFile.concat {fs ds : List Token} {decls : List (Declaration Span)}
    {decl : Declaration Span} (h : IsFile source fs decls) (hdecl : IsDeclaration source ds decl) :
    IsFile source (fs ++ ds) (decls ++ [decl]) := h.append hdecl.isFile

/-- The byte is where the last of the tokens ends that the declarations derive from. -/
theorem CompletedAt.exists_isFile {tokens : List Token} {decls : List (Declaration Span)} {e : Nat}
    (h : CompletedAt source tokens decls e) : ∃ ts left, tokens = ts ++ left ∧
      IsFile source ts decls ∧ (ts.getLast?.map Token.stop).getD 0 = e := by
  cases h with
  | nil => exact ⟨[], tokens, rfl, .nil, rfl⟩
  | @concat fs ds left rbrace decls decl hdecls hdecl hrbrace =>
    refine ⟨fs ++ (ds ++ [rbrace]), left, ?_, hdecls.concat hdecl, ?_⟩
    · rw [List.append_assoc, List.append_assoc, List.singleton_append]
    · rw [← List.append_assoc, List.getLast?_concat]
      rfl

theorem CompletedAt.unique {tokens : List Token} {decls : List (Declaration Span)} {e e' : Nat}
    (h : CompletedAt source tokens decls e) (h' : CompletedAt source tokens decls e') : e = e' := by
  obtain ⟨ts, left, heq, hfile, rfl⟩ := h.exists_isFile
  obtain ⟨us, left', heq', hfile', rfl⟩ := h'.exists_isFile
  rw [hfile.eq_of_append hfile' (heq.symm.trans heq')]

end Grammar

namespace SchemaFile

open Grammar

variable (source : Nat)

theorem read_of_isFile {text : String} {decls : List (Declaration Span)}
    (h : IsFile source (Token.scan text) decls) : read source text = ⟨decls, none⟩ :=
  ((read_exact source text).2 decls).mp h

/-- Tokens that a text goes on after do not matter to the declarations they derive. -/
theorem prefix_of_isFile {text : String} {ts left : List Token} {decls : List (Declaration Span)}
    (h : IsFile source ts decls) (htext : Token.scan text = ts ++ left) :
    decls <+: (read source text).declarations := by
  refine ⟨(Grammar.declarations source left).1, ?_⟩
  rw [read, htext, declarations_append h]

/-- A text whose front is cut into some tokens starts with what these derive. -/
theorem read_cutOff {front : List Char} {ts : List Token} {decls : List (Declaration Span)}
    (hcut : Token.IsCutOff 0 front ts) (h : IsFile source ts decls) :
    read source (String.ofList front) = ⟨decls, none⟩ ∧
      ∀ more : String, decls <+: (read source (String.ofList front ++ more)).declarations := by
  have hscan (more : String) : Token.scan (String.ofList front ++ more)
      = ts ++ Token.scanFrom (0 + Token.byteCount front) more.toList := by
    rw [Token.scan_eq_scanFrom, String.toList_append, String.toList_ofList, hcut.cuts]
  constructor
  · refine read_of_isFile source ?_
    have hfront := hscan ""
    rw [String.append_empty, String.toList_empty, Token.scanFrom, List.append_nil] at hfront
    rwa [hfront]
  · exact fun more ↦ prefix_of_isFile source h (hscan more)

/-- Behind the declarations that a text starts with it can be cut. -/
theorem exists_cut {text : String} {ts left : List Token} {decls : List (Declaration Span)}
    (htokens : Token.scan text = ts ++ left) (h : IsFile source ts decls) :
    ∃ e, CompletedAt source (Token.scan text) decls e ∧
      ∃ front back : String, text = front ++ back ∧ front.utf8ByteSize = e ∧
        read source front = ⟨decls, none⟩ ∧
        ∀ more : String, decls <+: (read source (front ++ more)).declarations := by
  rcases h.eq_nil_or_concat with
    ⟨-, rfl⟩ | ⟨fs, ds, rbrace, before, last, rfl, rfl, hfs, hlast, hrbrace⟩
  · -- an empty text declares nothing either
    refine ⟨0, .nil, "", text, String.empty_append.symm, rfl, ?_, fun more ↦ List.nil_prefix⟩
    exact read_of_isFile source (Token.scan_empty ▸ .nil)
  · have hscans := Token.scans_scan text
    rw [htokens, ← List.append_assoc, List.append_assoc _ [rbrace]] at hscans
    have hmark : TokenKind.ofPunctuation? '\x7d' = some rbrace.kind := congrArg some hrbrace.symm
    obtain ⟨front, rest, htext, hstop, hcut⟩ := hscans.cutOff hmark
    refine ⟨rbrace.stop, ?_, String.ofList front, String.ofList rest, ?_, ?_, ?_⟩
    · rw [htokens, List.append_assoc, List.append_assoc]
      exact .concat hfs hlast hrbrace
    · rw [← String.ofList_append, ← htext, String.ofList_toList]
    · rw [Token.utf8ByteSize_ofList, ← hstop, Nat.zero_add]
    · exact read_cutOff source hcut (by rwa [List.append_assoc])

/-- **A completed declaration stays.** Behind the brace that closes the last of the declarations
that are read, the text can be cut, and it is read as these declarations without a diagnostic. It
can go on there with anything, and the declarations that are read start with them. -/
theorem read_completed (text : String) :
    let decls := (read source text).declarations
    ∃ e, CompletedAt source (Token.scan text) decls e ∧
      (∀ e', CompletedAt source (Token.scan text) decls e' → e' = e) ∧
      ∃ front back : String, text = front ++ back ∧ front.utf8ByteSize = e ∧
        read source front = ⟨decls, none⟩ ∧
        ∀ more : String, decls <+: (read source (front ++ more)).declarations := by
  intro decls
  obtain ⟨ts, left, htokens, hfile⟩ := declarations_isFile source (Token.scan text)
  obtain ⟨e, hcompleted, hcut⟩ := exists_cut source htokens hfile
  exact ⟨e, hcompleted, fun e' h ↦ h.unique hcompleted, hcut⟩

example : (read 0 "class A \x7b\x7d#class B \x7b").declarations.map (·.name) = ["A"] := by
  decide +kernel

end SchemaFile

end FieldPaths
