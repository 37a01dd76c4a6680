import FieldPaths.Token
import Mathlib.Data.Bool.AllAny
import Mathlib.Data.List.TakeWhile
import Mathlib.Data.String.Basic

/-!
# How a text is cut

Cutting as a relation, with one constructor for each thing that a text can start with. A
constructor says of the piece it takes what the piece is and what must not follow it; which piece
is tried first, and how far one has to look to find its end, is not said. What must not follow is
what makes the pieces as long as they are, and it leaves no choice: a text is cut in one way
(`scans_iff`).

The function beside it, `scanFrom`, takes a run of unrecognized characters as long as it goes and in
one step. The scan itself only ever sees the next character; that it comes to the same is in
`FieldPaths.Proofs.Token.Runs`. With that, a fact about tokens is a fact about single pieces, and to
cut a text it is enough to name its pieces.
-/

namespace FieldPaths

/-! ## Counting bytes -/

namespace Token

theorem byteCount_cons (c : Char) (cs : List Char) :
    byteCount (c :: cs) = c.utf8Size + byteCount cs := rfl

theorem byteCount_append (cs ds : List Char) :
    byteCount (cs ++ ds) = byteCount cs + byteCount ds := by
  induction cs with
  | nil => exact (Nat.zero_add _).symm
  | cons c cs ih => rw [List.cons_append, byteCount_cons, byteCount_cons, ih, Nat.add_assoc]

theorem byteCount_pos {cs : List Char} (h : cs ≠ []) : 0 < byteCount cs := by
  obtain ⟨c, cs, rfl⟩ := List.exists_cons_of_ne_nil h
  rw [byteCount_cons]
  exact Nat.add_pos_left c.utf8Size_pos _

theorem utf8ByteSize_ofList (cs : List Char) : (String.ofList cs).utf8ByteSize = byteCount cs := by
  rw [String.utf8ByteSize_ofList]
  induction cs with
  | nil => rfl
  | cons c cs ih => rw [String.utf8Len_cons, ih, byteCount_cons, Nat.add_comm]

theorem byteCount_toList (text : String) : byteCount text.toList = text.utf8ByteSize := by
  rw [← utf8ByteSize_ofList, String.ofList_toList]

end Token

/-! ## Classes of characters -/

namespace TokenKind

theorem ofPunctuation?_char {c : Char} {kind : TokenKind} (h : ofPunctuation? c = some kind) :
    c ∈ "@\x7b\x7d()<>[],:;.".toList := by
  rw [ofPunctuation?.eq_def] at h
  split at h
  case h_14 => cases h
  all_goals decide

end TokenKind

namespace Token

theorem isSpace_iff {c : Char} :
    isSpace c = true ↔ c = ' ' ∨ c = '\t' ∨ c = '\r' ∨ c = '\n' ∨ c = '\x0c' := by
  simp [isSpace, or_assoc]

theorem isNameStart_iff {c : Char} :
    isNameStart c = true ↔ c.isAlpha = true ∨ c = '_' ∨ c = '$' := by
  simp [isNameStart, or_assoc]

theorem isNameContinue_iff {c : Char} :
    isNameContinue c = true ↔ c.isAlphanum = true ∨ c = '_' ∨ c = '$' := by
  simp [isNameContinue, or_assoc]

theorem isNameContinue_of_isNameStart {c : Char} (h : isNameStart c = true) :
    isNameContinue c = true := by
  rw [isNameStart_iff] at h
  rw [isNameContinue_iff, Char.isAlphanum]
  exact h.imp_left fun h ↦ by rw [h, Bool.true_or]

/-- What separates tokens goes on with no name and starts none. -/
theorem isNameContinue_of_isSpace {c : Char} (h : isSpace c = true) : isNameContinue c = false := by
  rw [isSpace_iff] at h
  rcases h with rfl | rfl | rfl | rfl | rfl <;> rfl

theorem isSpace_of_isNameStart {c : Char} (h : isNameStart c = true) : isSpace c = false := by
  rw [Bool.eq_false_iff]
  intro hspace
  have hcontinue := isNameContinue_of_isNameStart h
  rw [isNameContinue_of_isSpace hspace] at hcontinue
  cases hcontinue

theorem slash_ne_of_isNameStart {c : Char} (h : isNameStart c = true) : c ≠ '/' := by
  rintro rfl
  cases h

theorem slash_ne_of_isSpace {c : Char} (h : isSpace c = true) : c ≠ '/' := by
  rintro rfl
  cases h

/-- A punctuation mark is nothing else. -/
theorem class_of_punctuation {c : Char} {kind : TokenKind}
    (h : TokenKind.ofPunctuation? c = some kind) :
    isSpace c = false ∧ isNameStart c = false ∧ c ≠ '/' := by
  have hall : ∀ d ∈ "@\x7b\x7d()<>[],:;.".toList,
      isSpace d = false ∧ isNameStart d = false ∧ d ≠ '/' :=
    List.all_iff_forall_prop.mp (by decide)
  exact hall c (TokenKind.ofPunctuation?_char h)

theorem startsComment_cons {c : Char} {cs : List Char} :
    startsComment (c :: cs) = true ↔ c = '/' ∧ cs.head? = some '/' := by
  constructor
  · intro h
    rw [startsComment.eq_def] at h
    split at h
    · rename_i heq
      obtain ⟨rfl, rfl⟩ := List.cons.inj heq
      exact ⟨rfl, rfl⟩
    · cases h
  · rintro ⟨rfl, hhead⟩
    obtain ⟨cs, rfl⟩ := List.head?_eq_some_iff.mp hhead
    rfl

theorem startsComment_of_ne {c : Char} (h : c ≠ '/') (cs : List Char) :
    startsComment (c :: cs) = false := by
  rw [Bool.eq_false_iff, ne_eq, startsComment_cons]
  exact fun hc ↦ h hc.1

/-- Whether the first character is unrecognized: it starts no token, no blank and no comment. -/
def startsGarbage : List Char → Bool
  | [] => false
  | c :: rest =>
    !(isSpace c || isNameStart c || (TokenKind.ofPunctuation? c).isSome || startsComment (c :: rest))

theorem startsGarbage_cons {c : Char} {cs : List Char} : startsGarbage (c :: cs) = true ↔
    isSpace c = false ∧ isNameStart c = false ∧ TokenKind.ofPunctuation? c = none ∧
      startsComment (c :: cs) = false := by
  rw [startsGarbage]
  simp [and_assoc]

/-! ### What a separator cannot change -/

theorem startsComment_append {s : Char} (hs : isSpace s = true) (cs ds : List Char) :
    startsComment (cs ++ s :: ds) = startsComment cs := by
  have hslash := slash_ne_of_isSpace hs
  rw [Bool.eq_iff_iff]
  cases cs with
  | nil =>
    rw [List.nil_append, startsComment_of_ne hslash]
    rfl
  | cons c cs =>
    rw [List.cons_append, startsComment_cons, startsComment_cons]
    cases cs with
    | nil => simp [hslash]
    | cons d cs => simp

theorem startsGarbage_append {s : Char} (hs : isSpace s = true) (cs ds : List Char) :
    startsGarbage (cs ++ s :: ds) = startsGarbage cs := by
  cases cs with
  | nil => simp [startsGarbage, hs]
  | cons c cs => rw [List.cons_append, startsGarbage, startsGarbage, ← List.cons_append,
      startsComment_append hs]

/-! ## Pieces -/

/-- Every character of the run is unrecognized, where `rest` follows the run. -/
def IsGarbage (run rest : List Char) : Prop :=
  ∀ before c after, run = before ++ c :: after → startsGarbage (c :: (after ++ rest)) = true

/-- The characters `cs` are a token of this kind if `rest` follows. -/
inductive IsLexeme : TokenKind → (cs rest : List Char) → Prop
  | name {c : Char} {more rest : List Char} (hc : isNameStart c = true)
      (hmore : ∀ d ∈ more, isNameContinue d = true)
      (hrest : ∀ d ∈ rest.head?, isNameContinue d = false) :
      IsLexeme (.ofName (c :: more)) (c :: more) rest
  | punctuation {c : Char} {kind : TokenKind} {rest : List Char}
      (hc : TokenKind.ofPunctuation? c = some kind) : IsLexeme kind [c] rest
  | garbage {run rest : List Char} (hne : run ≠ []) (hrun : IsGarbage run rest)
      (hrest : startsGarbage rest = false) : IsLexeme .garbage run rest

theorem IsLexeme.ne_nil {kind : TokenKind} {cs rest : List Char} (h : IsLexeme kind cs rest) :
    cs ≠ [] := by
  cases h with
  | name => exact List.cons_ne_nil _ _
  | punctuation => exact List.cons_ne_nil _ _
  | garbage hne => exact hne

/-- The tokens cut from a text whose first byte is at an offset. -/
inductive Scans : Nat → List Char → List Token → Prop
  | nil {offset : Nat} : Scans offset [] []
  | space {offset : Nat} {c : Char} {rest : List Char} {tokens : List Token}
      (hc : isSpace c = true) (h : Scans (offset + byteCount [c]) rest tokens) :
      Scans offset (c :: rest) tokens
  | comment {offset : Nat} {cs rest : List Char} {tokens : List Token} (hcs : '\n' ∉ cs)
      (hrest : ∀ c ∈ rest.head?, c = '\n')
      (h : Scans (offset + byteCount ('/' :: '/' :: cs)) rest tokens) :
      Scans offset ('/' :: '/' :: cs ++ rest) tokens
  | token {offset : Nat} {kind : TokenKind} {cs rest : List Char} {tokens : List Token}
      (hcs : IsLexeme kind cs rest) (h : Scans (offset + byteCount cs) rest tokens) :
      Scans offset (cs ++ rest) (⟨kind, offset, String.ofList cs⟩ :: tokens)

/-! ## Cutting from the front -/

/-- The unrecognized characters at the front. -/
def garbageRun : List Char → List Char
  | [] => []
  | c :: rest => if startsGarbage (c :: rest) then c :: garbageRun rest else []

/-- The tokens of the text `cs`, whose first byte is at `offset`, with runs taken whole. -/
def scanFrom (offset : Nat) : List Char → List Token
  | [] => []
  | c :: rest =>
    if isSpace c then scanFrom (offset + c.utf8Size) rest
    else if startsComment (c :: rest) then
      let comment := c :: rest.takeWhile (· != '\n')
      have : ((c :: rest).drop comment.length).length < (c :: rest).length :=
        drop_length_lt (by simp [comment]) (by simp)
      scanFrom (offset + byteCount comment) ((c :: rest).drop comment.length)
    else if isNameStart c then
      let name := c :: rest.takeWhile isNameContinue
      have : ((c :: rest).drop name.length).length < (c :: rest).length :=
        drop_length_lt (by simp [name]) (by simp)
      ⟨.ofName name, offset, String.ofList name⟩ ::
        scanFrom (offset + byteCount name) ((c :: rest).drop name.length)
    else match TokenKind.ofPunctuation? c with
      | some kind => ⟨kind, offset, c.toString⟩ :: scanFrom (offset + c.utf8Size) rest
      | none =>
        let run := c :: garbageRun rest
        have : ((c :: rest).drop run.length).length < (c :: rest).length :=
          drop_length_lt (by simp [run]) (by simp)
        ⟨.garbage, offset, String.ofList run⟩ ::
          scanFrom (offset + byteCount run) ((c :: rest).drop run.length)
  termination_by cs => cs.length

variable {offset : Nat}

theorem drop_takeWhile_length {α : Type} (p : α → Bool) (l : List α) :
    l.drop (l.takeWhile p).length = l.dropWhile p := by
  have h : (l.takeWhile p ++ l.dropWhile p).drop (l.takeWhile p).length = l.dropWhile p :=
    List.drop_left
  rwa [List.takeWhile_append_dropWhile] at h

theorem head?_dropWhile_eq_false {α : Type} {p : α → Bool} {l : List α} :
    ∀ a ∈ (l.dropWhile p).head?, p a = false := by
  intro a ha
  have h := List.head?_dropWhile_not p l
  rw [Option.mem_def.mp ha] at h
  simpa using h

theorem garbageRun_isPrefix (cs : List Char) : garbageRun cs <+: cs := by
  induction cs with
  | nil => exact List.nil_prefix
  | cons c rest ih =>
    rw [garbageRun]
    split
    · exact List.cons_prefix_cons.mpr ⟨rfl, ih⟩
    · exact List.nil_prefix

theorem garbageRun_append_drop (cs : List Char) :
    garbageRun cs ++ cs.drop (garbageRun cs).length = cs :=
  List.prefix_iff_eq_append.mp (garbageRun_isPrefix cs)

theorem garbageRun_isGarbage (cs : List Char) :
    IsGarbage (garbageRun cs) (cs.drop (garbageRun cs).length) := by
  induction cs with
  | nil =>
    intro before c after h
    simp [garbageRun] at h
  | cons d cs ih =>
    intro before c after h
    rw [garbageRun] at h ⊢
    by_cases hd : startsGarbage (d :: cs) = true
    · rw [if_pos hd] at h ⊢
      rw [List.length_cons, List.drop_succ_cons]
      cases before with
      | nil =>
        obtain ⟨rfl, rfl⟩ := List.cons.inj h
        rwa [garbageRun_append_drop]
      | cons b before => exact ih before c after (List.cons.inj h).2
    · rw [if_neg hd] at h
      simp at h

theorem startsGarbage_drop_garbageRun (cs : List Char) :
    startsGarbage (cs.drop (garbageRun cs).length) = false := by
  induction cs with
  | nil => rfl
  | cons c cs ih =>
    rw [garbageRun]
    by_cases hc : startsGarbage (c :: cs) = true
    · rw [if_pos hc]
      exact ih
    · rw [if_neg hc]
      exact Bool.eq_false_iff.mpr hc

theorem scans_scanFrom (offset : Nat) (cs : List Char) : Scans offset cs (scanFrom offset cs) := by
  fun_induction scanFrom offset cs with
  | case1 => exact .nil
  | case2 offset c rest hc ih => exact .space hc ih
  | case3 offset c rest _ hcomment comment _ ih =>
    obtain ⟨rfl, hhead⟩ := startsComment_cons.mp hcomment
    obtain ⟨rest, rfl⟩ := List.head?_eq_some_iff.mp hhead
    have hdrop : ('/' :: '/' :: rest).drop comment.length = rest.dropWhile (· != '\n') :=
      drop_takeWhile_length ..
    have hcs : '\n' ∉ rest.takeWhile (· != '\n') := fun hmem ↦ by
      simpa using List.mem_takeWhile_imp hmem
    have htext : '/' :: '/' :: rest.takeWhile (· != '\n') ++ rest.dropWhile (· != '\n')
        = '/' :: '/' :: rest := by
      rw [List.cons_append, List.cons_append, List.takeWhile_append_dropWhile]
    rw [hdrop] at ih ⊢
    rw [← htext]
    exact .comment hcs (fun c hc ↦ by simpa using head?_dropWhile_eq_false c hc) ih
  | case4 offset c rest _ _ hc name _ ih =>
    have hdrop : (c :: rest).drop name.length = rest.dropWhile isNameContinue :=
      drop_takeWhile_length ..
    have htext : name ++ rest.dropWhile isNameContinue = c :: rest := by
      rw [List.cons_append, List.takeWhile_append_dropWhile]
    rw [hdrop] at ih ⊢
    rw [← htext]
    exact .token (.name hc (fun _ ↦ List.mem_takeWhile_imp) head?_dropWhile_eq_false) ih
  | case5 offset c rest _ _ _ kind hkind ih => exact .token (.punctuation hkind) ih
  | case6 offset c rest hspace hcomment hname hkind run _ ih =>
    have hc : startsGarbage (c :: rest) = true := startsGarbage_cons.mpr
      ⟨Bool.eq_false_iff.mpr hspace, Bool.eq_false_iff.mpr hname, hkind,
        Bool.eq_false_iff.mpr hcomment⟩
    have hrun : run = garbageRun (c :: rest) := by rw [garbageRun, if_pos hc]
    have htext := garbageRun_append_drop (c :: rest)
    have hgarbage := garbageRun_isGarbage (c :: rest)
    have hend := startsGarbage_drop_garbageRun (c :: rest)
    rw [← hrun] at htext hgarbage hend
    generalize (c :: rest).drop run.length = left at *
    rw [← htext]
    exact .token (.garbage (List.cons_ne_nil _ _) hgarbage hend) ih

/-! ## There is no choice -/

theorem takeWhile_append_eq {α : Type} {p : α → Bool} {l m : List α} (hl : ∀ a ∈ l, p a = true)
    (hm : ∀ a ∈ m.head?, p a = false) : (l ++ m).takeWhile p = l := by
  have hm' : m.takeWhile p = [] := by
    cases m with
    | nil => rfl
    | cons a m => rw [List.takeWhile_cons, hm a rfl, if_neg Bool.false_ne_true]
  rw [List.takeWhile_append_of_pos hl, hm', List.append_nil]

theorem garbageRun_append {run rest : List Char} (hrun : IsGarbage run rest)
    (hrest : startsGarbage rest = false) : garbageRun (run ++ rest) = run := by
  induction run with
  | nil =>
    cases rest with
    | nil => rfl
    | cons c rest => rw [List.nil_append, garbageRun, hrest, if_neg Bool.false_ne_true]
  | cons c run ih =>
    have hmore : IsGarbage run rest := fun before d after h ↦
      hrun (c :: before) d after (by rw [h, List.cons_append])
    rw [List.cons_append, garbageRun, if_pos (hrun [] c run rfl), ih hmore]

theorem scanFrom_space {c : Char} (hc : isSpace c = true) (rest : List Char) :
    scanFrom offset (c :: rest) = scanFrom (offset + byteCount [c]) rest := by
  rw [scanFrom, if_pos hc]
  rfl

/-- A comment goes up to the next line feed. -/
theorem takeWhile_comment {cs rest : List Char} (hcs : '\n' ∉ cs)
    (hrest : ∀ c ∈ rest.head?, c = '\n') :
    ('/' :: cs ++ rest).takeWhile (· != '\n') = '/' :: cs := by
  refine takeWhile_append_eq (fun c hc ↦ ?_) (fun c hc ↦ ?_)
  · rcases List.mem_cons.mp hc with rfl | hc
    · rfl
    · exact bne_iff_ne.mpr fun h ↦ hcs (h ▸ hc)
  · rw [hrest c hc]
    rfl

theorem scanFrom_comment {cs rest : List Char} (hcs : '\n' ∉ cs)
    (hrest : ∀ c ∈ rest.head?, c = '\n') : scanFrom offset ('/' :: '/' :: cs ++ rest)
      = scanFrom (offset + byteCount ('/' :: '/' :: cs)) rest := by
  rw [List.cons_append, scanFrom, if_neg (by decide), if_pos (startsComment_cons.mpr ⟨rfl, rfl⟩)]
  dsimp only
  rw [takeWhile_comment hcs hrest, ← List.cons_append, List.drop_left]

theorem scanFrom_lexeme {kind : TokenKind} {cs rest : List Char} (h : IsLexeme kind cs rest) :
    scanFrom offset (cs ++ rest)
      = ⟨kind, offset, String.ofList cs⟩ :: scanFrom (offset + byteCount cs) rest := by
  cases h with
  | @name c more _ hc hmore hrest =>
    rw [List.cons_append, scanFrom, isSpace_of_isNameStart hc,
      startsComment_of_ne (slash_ne_of_isNameStart hc), if_pos hc]
    simp only [Bool.false_eq_true, if_false]
    rw [takeWhile_append_eq hmore hrest, ← List.cons_append, List.drop_left]
  | @punctuation c _ _ hc =>
    obtain ⟨hspace, hname, hslash⟩ := class_of_punctuation hc
    rw [List.singleton_append, scanFrom, hspace, startsComment_of_ne hslash, hname]
    simp only [Bool.false_eq_true, if_false, hc]
    rfl
  | garbage hne hrun hrest =>
    obtain ⟨c, run, rfl⟩ := List.exists_cons_of_ne_nil hne
    have htake := garbageRun_append hrun hrest
    obtain ⟨hspace, hname, hkind, hcomment⟩ := startsGarbage_cons.mp (hrun [] c run rfl)
    rw [List.cons_append, garbageRun, if_pos (hrun [] c run rfl)] at htake
    rw [List.cons_append, scanFrom, hspace, hcomment, hname]
    simp only [Bool.false_eq_true, if_false]
    split
    · rename_i kind hsome
      rw [hkind] at hsome
      cases hsome
    · rw [htake, ← List.cons_append, List.drop_left]

/-- A text is cut in one way. -/
theorem scans_iff {cs : List Char} {tokens : List Token} :
    Scans offset cs tokens ↔ scanFrom offset cs = tokens := by
  constructor
  · intro h
    induction h with
    | nil => rw [scanFrom]
    | space hc _ ih => rw [scanFrom_space hc, ih]
    | comment hcs hrest _ ih => rw [scanFrom_comment hcs hrest, ih]
    | token hcs _ ih => rw [scanFrom_lexeme hcs, ih]
  · rintro rfl
    exact scans_scanFrom offset cs

/-! ## Texts on lines of their own

A separator ends every token, and a line feed ends a comment too. So what is scanned before a line
feed is scanned as if the text ended there. -/

theorem IsGarbage.append {run rest : List Char} (h : IsGarbage run rest) {s : Char}
    (hs : isSpace s = true) (ds : List Char) : IsGarbage run (rest ++ s :: ds) := by
  intro before c after hrun
  rw [← List.append_assoc, ← List.cons_append, startsGarbage_append hs]
  exact h before c after hrun

theorem IsLexeme.append {kind : TokenKind} {cs rest : List Char} (h : IsLexeme kind cs rest)
    {s : Char} (hs : isSpace s = true) (ds : List Char) : IsLexeme kind cs (rest ++ s :: ds) := by
  cases h with
  | name hc hmore hrest =>
    refine .name hc hmore fun d hd ↦ ?_
    cases rest with
    | nil =>
      obtain rfl := Option.some.inj hd
      exact isNameContinue_of_isSpace hs
    | cons r rest => exact hrest d hd
  | punctuation hc => exact .punctuation hc
  | garbage hne hrun hrest =>
    exact .garbage hne (hrun.append hs ds) ((startsGarbage_append hs rest ds).trans hrest)

theorem Scans.append_newline {cs ds : List Char} {tokens more : List Token}
    (h : Scans offset cs tokens) (hds : Scans (offset + byteCount cs) ('\n' :: ds) more) :
    Scans offset (cs ++ '\n' :: ds) (tokens ++ more) := by
  induction h with
  | nil => exact hds
  | @space offset c rest tokens hc _ ih =>
    refine .space hc (ih ?_)
    rwa [Nat.add_assoc, ← byteCount_append]
  | @comment offset cs rest tokens hcs hrest _ ih =>
    rw [List.append_assoc]
    refine .comment hcs (fun c hc ↦ ?_) (ih ?_)
    · cases rest with
      | nil => exact (Option.some.inj hc).symm
      | cons r rest => exact hrest c hc
    · rwa [Nat.add_assoc, ← byteCount_append]
  | @token offset kind cs rest tokens hcs _ ih =>
    rw [List.append_assoc, List.cons_append]
    refine .token (hcs.append rfl ds) (ih ?_)
    rwa [Nat.add_assoc, ← byteCount_append]

/-- The tokens of two texts on lines of their own are those of the one and those of the other. -/
theorem scanFrom_append_newline (offset : Nat) (cs ds : List Char) :
    scanFrom offset (cs ++ '\n' :: ds)
      = scanFrom offset cs ++ scanFrom (offset + byteCount (cs ++ ['\n'])) ds := by
  have hds : Scans (offset + byteCount cs) ('\n' :: ds)
      (scanFrom (offset + byteCount (cs ++ ['\n'])) ds) := by
    rw [byteCount_append, ← Nat.add_assoc]
    exact .space rfl (scans_scanFrom _ ds)
  exact scans_iff.mp ((scans_scanFrom offset cs).append_newline hds)

end Token

end FieldPaths
