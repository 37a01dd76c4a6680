import FieldPaths.Proofs.Rust.Name
import FieldPaths.Proofs.Rust.Quoted
import Mathlib.Data.Bool.AllAny

/-!
# Program text written token by token

Text that is made of tokens is cut into the same tokens again. What can go wrong is where two of
them meet: a word goes on as long as its characters do, a quote or a `#` makes some words the front
of a literal, and a punctuation character is told from one that belongs together with the next by
what comes next. So a token stands as it is written before some texts and not before
others (`Lexeme.Stands`), and that is all there is to ask of a text token by token.
-/

namespace FieldPaths

namespace Rust

/-! ## Characters of words -/

theorem isAlpha_range {c : Char} (h : c.isAlpha = true) :
    (65 ≤ c.toNat ∧ c.toNat ≤ 90) ∨ (97 ≤ c.toNat ∧ c.toNat ≤ 122) := by
  rcases Bool.or_eq_true_iff.mp h with hupper | hlower
  · exact .inl (of_decide_eq_true hupper)
  · obtain ⟨hlow, hhigh⟩ := Bool.and_eq_true_iff.mp hlower
    exact .inr ⟨of_decide_eq_true hlow, of_decide_eq_true hhigh⟩

theorem isDigit_range {c : Char} (h : c.isDigit = true) : 48 ≤ c.toNat ∧ c.toNat ≤ 57 := by
  obtain ⟨hlow, hhigh⟩ := Bool.and_eq_true_iff.mp h
  exact ⟨of_decide_eq_true hlow, of_decide_eq_true hhigh⟩

/-- What a character that starts a word is not. -/
theorem start_not {c : Char} (h : c = '_' ∨ c.isAlpha = true) :
    (isBlank c || c.toNat == 0x200e || c.toNat == 0x200f) = false ∧
      Lexeme.delimiter? c = none ∧ c ≠ '\x22' ∧ c ≠ '\'' ∧ c ≠ '#' ∧ c.isDigit = false := by
  rcases h with rfl | h
  · decide
  · have hrange := isAlpha_range h
    refine ⟨?_, ?_, ?_, ?_, ?_, ?_⟩
    · simp only [isBlank, Bool.or_eq_false_iff, Bool.and_eq_false_iff, beq_eq_false_iff_ne,
        decide_eq_false_iff_not]
      omega
    · unfold Lexeme.delimiter?
      split
      all_goals first | rfl | exact absurd h (by decide)
    · rintro rfl
      exact absurd h (by decide)
    · rintro rfl
      exact absurd h (by decide)
    · rintro rfl
      exact absurd h (by decide)
    · rw [Bool.eq_false_iff]
      intro hdigit
      have := isDigit_range hdigit
      omega

theorem isWordStart_of_start {c : Char} (h : c = '_' ∨ c.isAlpha = true) :
    (isWordStart c || c == '_') = true := by
  rcases h with rfl | h
  · rfl
  · rw [isWordStart, h, Bool.true_or, Bool.true_or]

/-- The characters of a word continue it, and none of them starts a literal. -/
theorem part_of_word {c : Char} (h : c = '_' ∨ c.isAlphanum = true) :
    isWordContinue c = true ∧ c ∉ ['\x22', '\'', '#'] := by
  rcases h with rfl | h
  · decide
  · refine ⟨by rw [isWordContinue, h, Bool.true_or, Bool.true_or], ?_⟩
    intro hmem
    have hno : ∀ d ∈ ['\x22', '\'', '#'], d.isAlphanum = false :=
      List.all_iff_forall_prop.mp (by decide)
    rw [hno c hmem] at h
    cases h

namespace Lexeme

/-! ## Texts in which a token stands -/

/-- A token as it is written. A group is no token. -/
def spelling : Lexeme → List Char
  | tree (.ident name) => name.toList
  | tree (.punct char _) => [char]
  | tree (.literal text) => text.toList
  | tree (.group ..) => []
  | opening delimiter => delimiter.opening.toList
  | closing delimiter => delimiter.closing.toList

/-- A text that neither continues a word nor makes it the front of a literal. -/
def EndsWord (next : List Char) : Prop :=
  ∀ c ∈ next.head?, isWordContinue c = false ∧ c ∉ ['\x22', '\'', '#']

/-- A word, or one with the mark of the raw form. -/
def IsIdent (name : String) : Prop := IsWord name ∨ ∃ word, IsWord word ∧ name = "r#" ++ word

/-- Where `next` comes after it, the token is the one that is cut off. A slash is not among
the punctuation, because it can start a comment. -/
def Stands : Lexeme → (next : List Char) → Prop
  | tree (.ident name), next => IsIdent name ∧ EndsWord next
  | tree (.punct char isJoint), next =>
    if char = '\'' then isJoint = true ∧ startsCharacter next = false
    else isPunctuation char = true ∧ char ≠ '/' ∧ isJoint = startsPunctuation next
  | tree (.literal text), next => (∃ value, text = quoted value) ∧ wordSize next = 0
  | tree (.group ..), _ => False
  | opening delimiter, _ | closing delimiter, _ => delimiter ≠ .invisible

/-! ## Cutting one token off -/

theorem scan_nil : scan [] = some [] := by
  rw [scan.eq_def]

theorem scan_of_next {c : Char} {cs : List Char} {found : List Lexeme} {size : Nat}
    (h : next c cs = some (found, size)) :
    scan (c :: cs) = (scan (cs.drop size)).map (found ++ ·) := by
  rw [scan.eq_def]
  dsimp only
  generalize next c cs = n at h
  subst h
  rfl

/-- One token before a text that is reached with it. -/
theorem scan_of_next_append {c : Char} {cs rest : List Char} {lexeme : Lexeme}
    (h : next c (cs ++ rest) = some ([lexeme], cs.length)) :
    scan (c :: (cs ++ rest)) = (scan rest).map (lexeme :: ·) := by
  rw [scan_of_next h, List.drop_left]
  rfl

theorem scan_of_next_one {c : Char} {rest : List Char} {lexeme : Lexeme}
    (h : next c rest = some ([lexeme], 0)) : scan (c :: rest) = (scan rest).map (lexeme :: ·) :=
  @scan_of_next_append c [] rest lexeme h

theorem scan_of_next_nothing {c : Char} {cs rest : List Char}
    (h : next c (cs ++ rest) = some ([], cs.length)) : scan (c :: (cs ++ rest)) = scan rest := by
  rw [scan_of_next h, List.drop_left]
  exact Option.map_id'

theorem scan_blanks {gap : List Char} (h : ∀ c ∈ gap, isBlank c = true) (cs : List Char) :
    scan (gap ++ cs) = scan cs := by
  induction gap with
  | nil => rfl
  | cons c gap ih =>
    rw [List.forall_mem_cons] at h
    have hnext : next c ([] ++ (gap ++ cs)) = some ([], 0) := by
      unfold next
      rw [h.1, Bool.true_or, Bool.true_or, if_pos rfl]
    exact (scan_of_next_nothing hnext).trans (ih h.2)

/-- A line after two slashes is left out unless it documents something. -/
theorem scan_comment {line : List Char} (hline : '\n' ∉ line)
    (hplain : ∀ c ∈ line.head?, c ≠ '/' ∧ c ≠ '!') {rest : List Char}
    (hrest : ∀ c ∈ rest.head?, c = '\n') :
    scan ('/' :: ('/' :: line ++ rest)) = scan rest := by
  have htake : (line ++ rest).takeWhile (· != '\n') = line := by
    rw [List.takeWhile_append_of_pos fun c hc ↦ by
      simpa using fun h : c = '\n' ↦ hline (h ▸ hc)]
    cases rest with
    | nil => exact List.append_nil _
    | cons c rest =>
      obtain rfl := hrest c rfl
      exact List.append_nil _
  have hcomment : lineComment (line ++ rest) = ([], line.length) := by
    rw [lineComment, htake]
    cases line with
    | nil => rfl
    | cons c line =>
      obtain ⟨hslash, hbang⟩ := hplain c rfl
      simp [hslash, hbang]
  have hnext : next '/' ('/' :: (line ++ rest)) =
      some ((lineComment (line ++ rest)).1, (lineComment (line ++ rest)).2 + 1) := rfl
  rw [hcomment] at hnext
  exact scan_of_next_nothing hnext

/-! ## Words -/

theorem rawStringSize_eq_none (hashes : Nat) {cs : List Char}
    (h : ∀ c ∈ cs.head?, c ≠ '#' ∧ c ≠ '\x22') :
    rawStringSize (List.replicate hashes '#' ++ cs) = none := by
  have htake : (List.replicate hashes '#' ++ cs).takeWhile (· == '#')
      = List.replicate hashes '#' := by
    rw [List.takeWhile_append_of_pos (by simp)]
    cases cs with
    | nil => exact List.append_nil _
    | cons c cs => rw [List.takeWhile_cons_of_neg (by simp [(h c rfl).1]), List.append_nil]
  rw [rawStringSize, htake, List.drop_left]
  split
  · exact absurd rfl (h '\x22' rfl).2
  · rfl

section

variable {c : Char} {more rest : List Char}

theorem head_of_word (hmore : ∀ d ∈ more, d = '_' ∨ d.isAlphanum = true) (hrest : EndsWord rest) :
    ∀ d ∈ (more ++ rest).head?, d ≠ '\x22' ∧ d ≠ '\'' ∧ d ≠ '#' := by
  intro d hd
  have hnot : d ∉ ['\x22', '\'', '#'] := by
    cases more with
    | nil => exact (hrest d hd).2
    | cons m more =>
      obtain rfl := Option.some.inj hd
      exact (part_of_word (hmore _ List.mem_cons_self)).2
  simpa using hnot

/-- No word is the front of a literal. -/
theorem prefixedSize_of_word (hmore : ∀ d ∈ more, d = '_' ∨ d.isAlphanum = true)
    (hrest : EndsWord rest) : prefixedSize c (more ++ rest) = none := by
  have hhead := head_of_word hmore hrest
  have hraw {cs : List Char} (h : ∀ d ∈ cs.head?, d ≠ '\x22' ∧ d ≠ '\'' ∧ d ≠ '#') :
      rawStringSize cs = none :=
    rawStringSize_eq_none 0 fun d hd ↦ ⟨(h d hd).2.2, (h d hd).1⟩
  have hrawWord {cs : List Char} (h : more ++ rest = 'r' :: cs) :
      (rawStringSize cs).map (· + 1) = none := by
    cases more with
    | nil =>
      have hr := (hrest 'r' (by rw [← List.nil_append rest, h]; rfl)).1
      exact absurd hr (by decide)
    | cons m more =>
      rw [List.cons_append, List.cons_eq_cons] at h
      rw [← h.2, hraw (head_of_word (List.forall_mem_cons.mp hmore).2 hrest), Option.map_none]
  unfold prefixedSize
  split
  · exact hraw hhead
  · rename_i heq
    exact absurd rfl (hhead '\x22' (by rw [heq]; rfl)).1
  · rename_i heq
    exact absurd rfl (hhead '\x22' (by rw [heq]; rfl)).1
  · rename_i heq
    exact absurd rfl (hhead '\'' (by rw [heq]; rfl)).2.1
  · exact hrawWord ‹_›
  · exact hrawWord ‹_›
  · rfl

theorem takeWhile_of_word (hmore : ∀ d ∈ more, d = '_' ∨ d.isAlphanum = true)
    (hrest : EndsWord rest) : (more ++ rest).takeWhile isWordContinue = more := by
  rw [List.takeWhile_append_of_pos fun d hd ↦ (part_of_word (hmore d hd)).1]
  cases rest with
  | nil => exact List.append_nil _
  | cons d rest =>
    have hd := (hrest d rfl).1
    rw [List.takeWhile_cons_of_neg (by rw [hd]; decide), List.append_nil]

/-- How far a word goes after its first character. -/
def wordTail (c : Char) (cs : List Char) : Nat :=
  match c, cs with
  | 'r', '#' :: rest => if wordSize rest = 0 then 0 else 1 + wordSize rest
  | _, _ => (cs.takeWhile isWordContinue).length

/-- What starts with a letter or `_` and is no literal is a word. -/
theorem next_of_start (hstart : c = '_' ∨ c.isAlpha = true) {cs : List Char}
    (hliteral : prefixedSize c cs = none) : next c cs =
      some ([tree (.ident (String.ofList (c :: cs.take (wordTail c cs))))], wordTail c cs) := by
  obtain ⟨hblank, hdelimiter, hdouble, hsingle, -, hdigit⟩ := start_not hstart
  unfold next
  simp only [hblank, hdelimiter, hdigit, hliteral, isWordStart_of_start hstart,
    beq_eq_false_iff_ne.mpr hdouble, beq_eq_false_iff_ne.mpr hsingle, Bool.false_and,
    Bool.false_eq_true, if_false, if_true]
  rfl

theorem next_word (hstart : c = '_' ∨ c.isAlpha = true)
    (hmore : ∀ d ∈ more, d = '_' ∨ d.isAlphanum = true) (hrest : EndsWord rest) :
    next c (more ++ rest) = some ([tree (.ident (String.ofList (c :: more)))], more.length) := by
  have htail : wordTail c (more ++ rest) = more.length := by
    unfold wordTail
    split
    · rename_i heq
      exact absurd rfl (head_of_word hmore hrest '#' (by rw [heq]; rfl)).2.2
    · rw [takeWhile_of_word hmore hrest]
  rw [next_of_start hstart (prefixedSize_of_word hmore hrest), htail, List.take_left]

theorem next_rawWord (hstart : c = '_' ∨ c.isAlpha = true)
    (hmore : ∀ d ∈ more, d = '_' ∨ d.isAlphanum = true) (hrest : EndsWord rest) :
    next 'r' ('#' :: c :: more ++ rest)
      = some ([tree (.ident (String.ofList ('r' :: '#' :: c :: more)))],
          ('#' :: c :: more).length) := by
  have hraw : prefixedSize 'r' ('#' :: c :: more ++ rest) = none :=
    rawStringSize_eq_none 1 fun d hd ↦ by
      obtain rfl := Option.some.inj hd
      exact ⟨(start_not hstart).2.2.2.2.1, (start_not hstart).2.2.1⟩
  have hsize : wordSize (c :: (more ++ rest)) = more.length + 1 := by
    rw [wordSize, if_pos (isWordStart_of_start hstart), takeWhile_of_word hmore hrest, Nat.add_comm]
  have htail : wordTail 'r' ('#' :: c :: more ++ rest) = ('#' :: c :: more).length := by
    rw [List.cons_append, List.cons_append, wordTail, hsize, if_neg (Nat.succ_ne_zero _),
      Nat.add_comm]
    rfl
  rw [next_of_start (.inr rfl) hraw, htail, List.take_left]

theorem scan_ident {name : String} (h : IsIdent name) (hrest : EndsWord rest) :
    scan (name.toList ++ rest) = (scan rest).map (tree (.ident name) :: ·) := by
  rcases h with ⟨c, more, hname, hstart, hmore⟩ | ⟨word, ⟨c, more, hword, hstart, hmore⟩, rfl⟩
  · rw [hname, List.cons_append, scan_of_next_append (next_word hstart hmore hrest), ← hname,
      String.ofList_toList]
  · have hname : ("r#" ++ word).toList = 'r' :: '#' :: c :: more := by
      rw [String.toList_append, hword]
      rfl
    rw [hname, List.cons_append, scan_of_next_append (next_rawWord hstart hmore hrest), ← hname,
      String.ofList_toList]

end

/-! ## Other tokens -/

theorem scan_literal (value : String) {rest : List Char} (hrest : wordSize rest = 0) :
    scan ((quoted value).toList ++ rest)
      = (scan rest).map (tree (.literal (quoted value)) :: ·) := by
  let body := value.toList.flatMap quotedChar ++ ['\x22']
  have hsize : quotedSize '\x22' (body ++ rest) = some body.length := by
    rw [List.append_assoc, List.singleton_append, quotedSize_quoted, List.length_append]
    rfl
  have hquoted : (quoted value).toList = '\x22' :: body := toList_quoted value
  have hnext : next '\x22' (body ++ rest) = (quotedSize '\x22' (body ++ rest)).map fun size ↦
      ([tree (.literal (String.ofList ('\x22' :: (body ++ rest).take
          (size + wordSize ((body ++ rest).drop size)))))],
        size + wordSize ((body ++ rest).drop size)) := rfl
  rw [hsize, Option.map_some, List.drop_left, hrest, Nat.add_zero, List.take_left, ← hquoted,
    String.ofList_toList] at hnext
  rw [hquoted, List.cons_append, scan_of_next_append hnext]

theorem scan_punct {c : Char} (hc : isPunctuation c = true) (hslash : c ≠ '/') (hquote : c ≠ '\'')
    (rest : List Char) :
    scan (c :: rest) = (scan rest).map (tree (.punct c (startsPunctuation rest)) :: ·) := by
  have hchars : ∀ d ∈ "~!@#$%^&*-=+|;:,<.>/?'".toList,
      (isBlank d || d.toNat == 0x200e || d.toNat == 0x200f) = false ∧ delimiter? d = none ∧
        (d == '\x22') = false ∧ d.isDigit = false ∧ (isWordStart d || d == '_') = false ∧
        d ∉ ['r', 'b', 'c'] := List.all_iff_forall_prop.mp (by decide)
  obtain ⟨hblank, hdelimiter, hdouble, hdigit, hword, hprefix⟩ :=
    hchars c (List.contains_iff_mem.mp hc)
  have hliteral : prefixedSize c rest = none := by
    unfold prefixedSize
    split
    all_goals first | rfl | exact absurd hprefix (by decide)
  have hnext : next c rest = some ([tree (.punct c (startsPunctuation rest))], 0) := by
    unfold next
    simp only [hblank, hdelimiter, hdouble, hdigit, hliteral, hword, hc,
      beq_eq_false_iff_ne.mpr hquote, Bool.false_and, Bool.false_or, Bool.false_eq_true, if_false,
      if_true]
    split
    · exact absurd rfl hslash
    · exact absurd rfl hslash
    · rfl
  exact scan_of_next_one hnext

theorem scan_lifetime {rest : List Char} (h : startsCharacter rest = false) :
    scan ('\'' :: rest) = (scan rest).map (tree (.punct '\'' true) :: ·) := by
  have hnext : next '\'' rest = some ([tree (.punct '\'' true)], 0) := by
    unfold next
    simp only [h]
    rfl
  exact scan_of_next_one hnext

theorem scan_delimiter {delimiter : Delimiter} (h : delimiter ≠ .invisible) (rest : List Char) :
    scan (delimiter.opening.toList ++ rest) = (scan rest).map (opening delimiter :: ·) ∧
      scan (delimiter.closing.toList ++ rest) = (scan rest).map (closing delimiter :: ·) := by
  cases delimiter with
  | paren => exact ⟨scan_of_next_one rfl, scan_of_next_one rfl⟩
  | bracket => exact ⟨scan_of_next_one rfl, scan_of_next_one rfl⟩
  | brace => exact ⟨scan_of_next_one rfl, scan_of_next_one rfl⟩
  | invisible => exact absurd rfl h

/-- A token that stands before a text is cut off there. -/
theorem scan_of_stands {lexeme : Lexeme} {rest : List Char} (h : lexeme.Stands rest) :
    scan (lexeme.spelling ++ rest) = (scan rest).map (lexeme :: ·) := by
  cases lexeme with
  | tree t =>
    cases t with
    | ident name => exact scan_ident h.1 h.2
    | punct char isJoint =>
      rw [Stands] at h
      split at h
      · subst char
        obtain ⟨rfl, h⟩ := h
        exact scan_lifetime h
      · rename_i hquote
        obtain ⟨hchar, hslash, rfl⟩ := h
        exact scan_punct hchar hslash hquote rest
    | literal text =>
      obtain ⟨⟨value, rfl⟩, h⟩ := h
      exact scan_literal value h
    | group => cases h
  | opening delimiter => exact (scan_delimiter h rest).1
  | closing delimiter => exact (scan_delimiter h rest).2

/-! ## Layouts -/

/-- Tokens with the blanks after each of them, as text. -/
def written (layout : List (Lexeme × String)) : List Char :=
  layout.flatMap fun p ↦ p.1.spelling ++ p.2.toList

/-- Where `rest` comes after the layout, each of its tokens stands before what comes after it. -/
def Laid : List (Lexeme × String) → (rest : List Char) → Prop
  | [], _ => True
  | (lexeme, gap) :: more, rest =>
    lexeme.Stands (gap.toList ++ (written more ++ rest)) ∧
      (∀ c ∈ gap.toList, isBlank c = true) ∧ Laid more rest

theorem scan_written {layout : List (Lexeme × String)} {rest : List Char} (h : Laid layout rest) :
    scan (written layout ++ rest) = (scan rest).map (layout.map Prod.fst ++ ·) := by
  induction layout with
  | nil => exact Option.map_id'.symm
  | cons p more ih =>
    obtain ⟨hstands, hgap, hmore⟩ := h
    rw [written, List.flatMap_cons, List.append_assoc, List.append_assoc, ← written,
      scan_of_stands hstands, scan_blanks hgap, ih hmore, Option.map_map]
    rfl

/-! ## Texts that can stand anywhere -/

/-- Whatever comes after the text, these are the tokens it is cut into. -/
def Yields (text : String) (lexemes : List Lexeme) : Prop :=
  ∀ rest, scan (text.toList ++ rest) = (scan rest).map (lexemes ++ ·)

namespace Yields

variable {text more : String} {ls ms : List Lexeme}

/-- A layout with blanks before it. -/
theorem of_laid (gap : String) {layout : List (Lexeme × String)}
    (hgap : ∀ c ∈ gap.toList, isBlank c = true) (htext : text.toList = gap.toList ++ written layout)
    (h : ∀ rest, Laid layout rest) : Yields text (layout.map Prod.fst) := by
  intro rest
  rw [htext, List.append_assoc, scan_blanks hgap, scan_written (h rest)]

/-- A layout with nothing before it. -/
theorem of_laid_first {layout : List (Lexeme × String)} (htext : text.toList = written layout)
    (h : ∀ rest, Laid layout rest) : Yields text (layout.map Prod.fst) :=
  of_laid "" (by simp) htext h

theorem blanks (h : ∀ c ∈ text.toList, isBlank c = true) : Yields text [] := by
  intro rest
  rw [scan_blanks h]
  exact Option.map_id'.symm

theorem append (h : Yields text ls) (hmore : Yields more ms) :
    Yields (text ++ more) (ls ++ ms) := by
  intro rest
  rw [String.toList_append, List.append_assoc, h, hmore, Option.map_map]
  exact congrArg (Option.map · (scan rest)) (funext fun _ ↦ (List.append_assoc ..).symm)

theorem intercalate {α : Type} {f : α → String} {g : α → List Lexeme} {l : List α}
    (htext : ∀ c ∈ text.toList, isBlank c = true) (h : ∀ a ∈ l, Yields (f a) (g a)) :
    Yields (text.intercalate (l.map f)) (l.flatMap g) := by
  induction l with
  | nil => exact blanks nofun
  | cons a l ih =>
    rw [List.forall_mem_cons] at h
    cases l with
    | nil =>
      rw [List.map_singleton, String.intercalate_singleton, List.flatMap_singleton]
      exact h.1
    | cons b l =>
      rw [List.map_cons, List.map_cons, String.intercalate_cons_cons, List.flatMap_cons]
      exact (List.append_nil (g a) ▸ h.1.append (blanks htext)).append (ih h.2)

theorem join {α : Type} {f : α → String} {g : α → List Lexeme} {l : List α}
    (h : ∀ a ∈ l, Yields (f a) (g a)) : Yields (String.join (l.map f)) (l.flatMap g) := by
  induction l with
  | nil => exact blanks nofun
  | cons a l ih =>
    rw [List.forall_mem_cons] at h
    rw [List.map_cons, String.join_cons, List.flatMap_cons]
    exact h.1.append (ih h.2)

end Yields

end Lexeme

/-! ## Trees -/

namespace Tree

open Lexeme

mutual

/-- The tokens of a tree with its delimiters. -/
def lexemes : Tree → List Lexeme
  | group delimiter content => opening delimiter :: (lexemesOf content ++ [closing delimiter])
  | ident name => [tree (ident name)]
  | punct char isJoint => [tree (punct char isJoint)]
  | literal text => [tree (literal text)]

/-- The tokens of some trees with their delimiters. -/
def lexemesOf : List Tree → List Lexeme
  | [] => []
  | t :: more => t.lexemes ++ lexemesOf more

end

theorem lexemesOf_append (trees more : List Tree) :
    lexemesOf (trees ++ more) = lexemesOf trees ++ lexemesOf more := by
  induction trees with
  | nil => rfl
  | cons t trees ih => rw [List.cons_append, lexemesOf, lexemesOf, ih, List.append_assoc]

theorem lexemesOf_flatMap {α : Type} (f : α → List Tree) (l : List α) :
    lexemesOf (l.flatMap f) = l.flatMap fun a ↦ lexemesOf (f a) := by
  induction l with
  | nil => rfl
  | cons a l ih => rw [List.flatMap_cons, lexemesOf_append, ih, List.flatMap_cons]

mutual

theorem nest_lexemes (t : Tree) (more : List Lexeme) (outer : List (Delimiter × List Tree))
    (done : List Tree) : nest (t.lexemes ++ more) outer done = nest more outer (t :: done) := by
  match t with
  | group delimiter content =>
    rw [lexemes, List.cons_append, List.append_assoc, nest, nest_lexemesOf, List.append_nil,
      List.singleton_append, nest, if_pos rfl, List.reverse_reverse]
  | ident name => rfl
  | punct char isJoint => rfl
  | literal text => rfl

theorem nest_lexemesOf (ts : List Tree) (more : List Lexeme) (outer : List (Delimiter × List Tree))
    (done : List Tree) :
    nest (lexemesOf ts ++ more) outer done = nest more outer (ts.reverse ++ done) := by
  match ts with
  | [] => rfl
  | t :: ts =>
    rw [lexemesOf, List.append_assoc, nest_lexemes, nest_lexemesOf, List.reverse_cons,
      List.append_assoc]
    rfl

end

/-- Text is read as the trees whose tokens it is cut into. -/
theorem read?_of_scan {text : String} {trees : List Tree}
    (h : scan text.toList = some (lexemesOf trees)) : read? text = some trees := by
  rw [read?, h, Option.bind_some, ← List.append_nil (lexemesOf trees), nest_lexemesOf, nest,
    List.append_nil, List.reverse_reverse]

end Tree

end Rust

end FieldPaths
