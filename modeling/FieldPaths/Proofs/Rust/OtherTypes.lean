import FieldPaths.Proofs.Rust.Reader
import FieldPaths.Text.Word

/-!
# Types that are no paths

A type that is neither a path nor a wrapper has its text for its name, and a text must not be taken
for the name of a path. What keeps it from that is how such a type is written: it starts with a mark
or a parenthesis, or there is more of it behind its first word, and then there is a blank in its
text. The one word that is a type by itself and no path is the underscore, and that is no name.
-/

namespace FieldPaths.Rust

/-! ## What a type wraps -/

/-- The type behind references, parentheses, invisible groups, arrays and slices. -/
def Ty.core : Ty → Ty
  | .reference _ elem | .paren elem | .group elem | .array elem _ | .slice elem => elem.core
  | ty => ty

/-! ## Words and other texts -/

/-- What an identifier looks like, with or without the mark of raw names. Words that have a meaning
of their own look like that too, but not the underscore. -/
def IsIdentText (name : String) : Prop :=
  ∃ c more, (name.toList = c :: more ∨ name.toList = 'r' :: '#' :: c :: more) ∧
    (c = '_' ∨ isWordStart c = true) ∧ (∀ d ∈ more, isWordContinue d = true) ∧ c :: more ≠ ['_']

theorem IsIdentText.head {name : String} (h : IsIdentText name) :
    ∀ c ∈ name.toList.head?, c = '_' ∨ isWordStart c = true := by
  obtain ⟨c, more, hname | hname, hstart, -⟩ := h
  · rw [hname]
    rintro _ ⟨⟩
    exact hstart
  · rw [hname]
    rintro _ ⟨⟩
    exact .inr (by decide)

theorem IsIdentText.blank_not_mem {name : String} (h : IsIdentText name) : ' ' ∉ name.toList := by
  obtain ⟨c, more, hname, hstart, hmore, -⟩ := h
  have hword : ' ' ∉ c :: more := by
    rw [List.mem_cons, not_or]
    constructor
    · rintro rfl
      exact absurd hstart (by decide)
    · exact fun hmem ↦ absurd (hmore _ hmem) (by decide)
  rcases hname with hname | hname
  · rwa [hname]
  · rw [hname, List.mem_cons, List.mem_cons, not_or, not_or]
    exact ⟨by decide, by decide, hword⟩

namespace Tree

/-- A tree that no word starts with. -/
def IsMark : Tree → Prop
  | .punct c _ => c ≠ '_' ∧ isWordStart c = false
  | .group delimiter _ => delimiter = .paren
  | _ => False

/-- Trees whose text is not that of a word. -/
inductive NoWord : List Tree → Prop
  | underscore : NoWord [.ident "_"]
  | words (name : String) (next : Tree) (more : List Tree) : NoWord (.ident name :: next :: more)
  | mark {t : Tree} (more : List Tree) (h : t.IsMark) : NoWord (t :: more)

theorem IsMark.head {t : Tree} (h : t.IsMark) (more : List Tree) :
    ∃ c ∈ (textOf (t :: more)).toList.head?, ¬ (c = '_' ∨ isWordStart c = true) := by
  rw [textOf, String.append_assoc, String.toList_append]
  cases t with
  | ident name => exact h.elim
  | literal text => exact h.elim
  | punct c isJoint =>
    have hmark : (punct c isJoint).text.toList = [c] := by
      rw [text]
      exact String.toList_singleton c
    refine ⟨c, by rw [hmark]; rfl, ?_⟩
    rw [not_or, Bool.not_eq_true]
    exact h
  | group delimiter content =>
    obtain rfl : delimiter = .paren := h
    refine ⟨'(', ?_, by decide⟩
    rw [text, String.append_assoc, String.toList_append]
    · rfl
    · nofun
    · nofun

/-- No identifier is written like that. -/
theorem NoWord.not_isIdentText {trees : List Tree} (h : NoWord trees) :
    ¬ IsIdentText (textOf trees) := by
  intro hident
  cases h with
  | underscore =>
    obtain ⟨c, more, hname | hname, -, -, hne⟩ := hident
    · exact hne hname.symm
    · cases hname
  | words name next more =>
    refine hident.blank_not_mem ?_
    rw [textOf, if_neg (by simp [isJoint]), String.toList_append, String.toList_append]
    exact List.mem_append_left _ (List.mem_append_right _ List.mem_cons_self)
  | mark more h =>
    obtain ⟨c, hc, hno⟩ := h.head more
    exact hno (hident.head c hc)

theorem NoWord.append {trees : List Tree} (h : NoWord trees) (more : List Tree) :
    NoWord (trees ++ more) := by
  cases h with
  | underscore =>
    cases more with
    | nil => exact .underscore
    | cons next more => exact .words "_" next more
  | words name next rest => exact .words name next (rest ++ more)
  | mark rest h => exact .mark (rest ++ more) h

/-- A word with something behind it. -/
theorem NoWord.of_ident {name : String} {more : List Tree} (h : more ≠ []) :
    NoWord (.ident name :: more) := by
  obtain ⟨next, more, rfl⟩ := List.exists_cons_of_ne_nil h
  exact .words name next more

end Tree

/-- A path with something behind it. -/
theorem Ty.noWord_path_append {lead : PathLead}
    (hlead : ∀ of root size, lead ≠ .member of root size) (qualifier : List Segment)
    (last : Segment) {more : List Tree} (hmore : more ≠ []) :
    Tree.NoWord ((Ty.path lead qualifier last).tokens ++ more) := by
  cases lead with
  | member of root size => exact absurd rfl (hlead of root size)
  | fromRoot => exact .mark _ ⟨by decide, by decide⟩
  | plain =>
    obtain ⟨name, rest, h⟩ : ∃ name rest,
        joined (segmentTokens qualifier ++ [last.tokens]) none = .ident name :: rest := by
      cases qualifier with
      | nil =>
        obtain ⟨name, args⟩ := last
        exact ⟨name, _, rfl⟩
      | cons first qualifier =>
        obtain ⟨name, args⟩ := first
        exact ⟨name, _, rfl⟩
    change Tree.NoWord (joined (segmentTokens qualifier ++ [last.tokens]) none ++ more)
    rw [h]
    exact .of_ident (by simp [hmore])

/-! ## Parts of types -/

namespace Reader

variable {trees : List Tree} {hasPlus : Bool}

theorem take_one_gives {text : String} (h : words text trees = true) :
    GivesFrom trees (· = [.ident text]) (take 1) := by
  intro input value rest hseen hrun
  obtain rfl : (Tree.seenAll input.trees).take 1 = value := by
    cases hrun
    rfl
  rw [hseen]
  cases trees with
  | nil => cases h
  | cons t more =>
    rw [List.take_succ_cons, List.take_zero, Option.some.inj (head?_of_words h)]

theorem word_gives (text : String) : Gives (· = [.ident text]) (word text) :=
  .left fun _ ↦ .ite take_one_gives fun _ ↦ (Gives.missing _).from

theorem word?_gives (text : String) : Gives (fun t ↦ t = [] ∨ t = [.ident text]) (word? text) :=
  .left fun _ ↦ .ite (fun h ↦ (take_one_gives h).imp fun _ ↦ .inr) fun _ ↦
    (Gives.pure (.inl rfl)).from

theorem mark_gives (text : String) : Gives (· = Tree.op text) (mark text) :=
  .left fun _ ↦ .ite (fun _ ↦ Gives.from <| .last fun _ ↦ .pure rfl) fun _ ↦ (Gives.throw _).from

theorem boundLifetimes_gives (steps : Nat) : Gives Tree.NoWord (boundLifetimes steps) := by
  cases steps with
  | zero => exact .throw _
  | succ steps =>
    rw [boundLifetimes]
    refine .bind (word_gives "for") fun word hword ↦ ?_
    refine .bind (mark_gives "<") fun opening hopening ↦ ?_
    refine .last fun params ↦ .last fun closing ↦ .pure ?_
    rw [hword, hopening]
    exact .words "for" _ _

theorem segments_gives (steps : Nat) : Gives (· ≠ []) (segments steps) := by
  cases steps with
  | zero => exact .throw _
  | succ steps =>
    rw [segments]
    refine .last fun first ↦ .last fun _ ↦ .ite ?_ (.pure (List.cons_ne_nil _ _))
    exact .last fun _ ↦ .last fun more ↦ .pure (List.cons_ne_nil _ _)

theorem joined_ne_nil {segments : List Segment} (h : segments ≠ []) :
    joined (segments.map (·.tokens)) none ≠ [] := by
  obtain ⟨⟨name, args⟩, more, rfl⟩ := List.exists_cons_of_ne_nil h
  exact List.cons_ne_nil (Tree.ident name) _

theorem traitBound_gives (steps : Nat) : Gives (· ≠ []) (traitBound steps) := by
  cases steps with
  | zero => exact .throw _
  | succ steps =>
    rw [traitBound]
    refine .last fun trees ↦ ?_
    extract_lets fromLifetimes
    -- whatever stands before them, there are segments
    have hlifetimes : ∀ lifetimes, Gives (· ≠ []) (fromLifetimes lifetimes) := by
      intro lifetimes
      refine .last fun maybe ↦ .last fun trees ↦ ?_
      extract_lets fromMore
      have hmore : ∀ more, Gives (· ≠ []) (fromMore more) := by
        intro more
        refine .last fun root ↦ .bind (segments_gives steps) fun all hall ↦ ?_
        extract_lets front
        have hfront : front ≠ [] := List.append_ne_nil_of_right_ne_nil _ (joined_ne_nil hall)
        refine .last fun trees ↦ .ite ?_ (.pure hfront)
        refine .last fun _ ↦ .last fun params ↦ .last fun returned ↦ .pure ?_
        simp [hfront]
      exact .ite (.last fun _ ↦ hmore _) (.last fun _ ↦ hmore _)
    exact .ite (.last fun _ ↦ hlifetimes _) (.last fun _ ↦ hlifetimes _)

theorem bound_gives (steps : Nat) : Gives (fun (_, tokens) ↦ tokens ≠ []) (bound steps) := by
  cases steps with
  | zero => exact .throw _
  | succ steps =>
    rw [bound]
    refine .last fun trees ↦ .ite ?_ (.ite ?_ ?_)
    · exact .last fun _ ↦ .pure (List.cons_ne_nil _ _)
    · exact .last fun _ ↦ .pure (List.cons_ne_nil _ _)
    · exact .bind (traitBound_gives steps) fun _ h ↦ .pure h

theorem bounds_gives (steps : Nat) :
    Gives (fun (_, tokens) ↦ tokens ≠ []) (bounds hasPlus steps) := by
  cases steps with
  | zero => exact .throw _
  | succ steps =>
    rw [bounds]
    refine .bind (bound_gives steps) fun (isTrait, tokens) h ↦ .last fun _ ↦ .ite ?_ (.pure h)
    refine .last fun _ ↦ .last fun _ ↦ .ite (.last fun _ ↦ .pure ?_) (.pure ?_)
    · simp [h]
    · simp [h]

/-- Bounds that start with a lifetime still do when they are written. -/
theorem bounds_gives_lifetime (steps : Nat) (h : lifetimes trees = true) :
    GivesFrom trees (fun (_, tokens) ↦ ∃ name more, tokens = Tree.lifetime name ++ more)
      (bounds hasPlus steps) := by
  have hbound (steps : Nat) : GivesFrom trees
      (fun (_, tokens) ↦ ∃ name more, tokens = Tree.lifetime name ++ more) (bound steps) := by
    cases steps with
    | zero => exact (Gives.throw _).from
    | succ steps =>
      rw [bound]
      refine .left <| .ite (fun _ ↦ ?_) fun hno ↦ absurd h hno
      exact Gives.from <| .last fun name ↦ .pure ⟨name, [], (List.append_nil _).symm⟩
  cases steps with
  | zero => exact (Gives.throw _).from
  | succ steps =>
    rw [bounds]
    refine .bind (hbound steps) fun (isTrait, tokens) ⟨name, more, htokens⟩ ↦ ?_
    have happend (rest : List Tree) :
        ∃ name more, tokens ++ rest = Tree.lifetime name ++ more :=
      ⟨name, more ++ rest, by rw [htokens, List.append_assoc]⟩
    refine .last fun _ ↦ .ite ?_ (.pure ⟨name, more, htokens⟩)
    refine .last fun plus ↦ .last fun _ ↦ .ite (.last fun ⟨_, rest⟩ ↦ .pure ?_) (.pure ?_)
    · rw [List.append_assoc]
      exact happend _
    · exact happend _

/-- There are further bounds where there is a plus. -/
theorem moreBounds_gives (steps : Nat) (h : marks "+" trees = true) :
    GivesFrom trees (· ≠ []) (moreBounds true steps) := by
  cases steps with
  | zero => exact (Gives.throw _).from
  | succ steps =>
    rw [moreBounds]
    refine .left <| .ite (fun _ ↦ Gives.from ?_) fun hno ↦ absurd h hno
    refine .bind (mark_gives "+") fun plus hplus ↦ ?_
    have hne (rest : List Tree) : plus ++ rest ≠ [] := by
      rw [hplus]
      exact List.cons_ne_nil _ _
    refine .last fun _ ↦ .ite (.last fun ⟨_, tokens⟩ ↦ .last fun more ↦ .pure ?_) (.pure ?_)
    · rw [List.append_assoc]
      exact hne _
    · rw [hplus]
      exact List.cons_ne_nil _ _

theorem function_gives (steps : Nat) : Gives Tree.NoWord (function steps) := by
  cases steps with
  | zero => exact .throw _
  | succ steps =>
    rw [function]
    refine .bind (word?_gives "unsafe") fun safety hsafety ↦ ?_
    refine .bind (word?_gives "extern") fun outside houtside ↦ .last fun trees ↦ ?_
    extract_lets fromAbi
    -- the name of another language stands behind the word for that
    have habi : ∀ abi, (outside = [] → abi = []) → Gives Tree.NoWord (fromAbi abi) := by
      intro abi h
      refine .bind (word_gives "fn") fun word hword ↦ ?_
      refine .last fun params ↦ .last fun returned ↦ .pure ?_
      rcases hsafety with rfl | rfl
      · rcases houtside with rfl | rfl
        · rw [h rfl, hword]
          exact .words "fn" _ _
        · exact .of_ident (by simp [hword])
      · exact .of_ident (by simp [hword])
    have hnone : Gives Tree.NoWord (pure [] >>= fromAbi) :=
      .bind (P := (· = [])) (.pure rfl) fun abi h ↦ habi abi fun _ ↦ h
    split
    · by_cases houtside : outside = []
      · rw [if_pos (by simp [houtside])]
        exact hnone
      · rw [if_neg (by simpa using houtside)]
        exact .last fun abi ↦ habi abi fun h ↦ absurd h houtside
    · exact hnone

theorem path_gives (steps : Nat) :
    Gives (fun ty ↦ ∃ lead qualifier last, ty = .path lead qualifier last) (path steps) := by
  cases steps with
  | zero => exact .throw _
  | succ steps =>
    rw [path]
    refine .last fun trees ↦ .ite ?_ ?_
    · refine .last fun _ ↦ .last fun self ↦ .last fun trees ↦ ?_
      extract_lets fromFront
      have hfront : ∀ front,
          Gives (fun ty ↦ ∃ lead qualifier last, ty = .path lead qualifier last)
            (fromFront front) := by
        intro front
        refine .last fun _ ↦ .last fun _ ↦ .last fun back ↦ ?_
        extract_lets all
        split
        · exact .pure ⟨_, _, _, rfl⟩
        · exact .throw _
      refine .ite ?_ (.last fun _ ↦ hfront _)
      exact .last fun _ ↦ .last fun _ ↦ .last fun _ ↦ .last fun _ ↦ hfront _
    · refine .last fun root ↦ .last fun all ↦ ?_
      split
      · exact .pure ⟨_, _, _, rfl⟩
      · exact .throw _

/-! ## Types -/

/-- Behind its wrappers a type is a path, or it is written as no word is. -/
def IsTold (ty : Ty) : Prop := ∀ tokens, ty.core = .other tokens → Tree.NoWord tokens

theorem isTold_path (lead : PathLead) (qualifier : List Segment) (last : Segment) :
    IsTold (.path lead qualifier last) := nofun

theorem isTold_other {tokens : List Tree} (h : Tree.NoWord tokens) : IsTold (.other tokens) := by
  rintro _ ⟨⟩
  exact h

theorem isTold_extended (lead : PathLead) (qualifier : List Segment) (last : Segment)
    (more : List Segment) : IsTold (extended lead qualifier last more) := by
  rw [extended]
  split
  · exact isTold_path _ _ _
  · exact isTold_path _ _ _

/-- A type in an invisible group is told, and so is a path that goes on behind it. -/
theorem grouped_gives_succ {steps : Nat} (htype : ∀ hasPlus, Gives IsTold (type hasPlus steps)) :
    Gives IsTold (grouped (steps + 1)) := by
  rw [grouped]
  refine .bind (.invisible (htype true)) fun elem helem ↦ .last fun trees ↦ ?_
  have hgroup : Gives IsTold (pure (Ty.group elem)) := .pure helem
  split
  · refine .ite (.last fun more ↦ .pure (isTold_extended _ _ _ more)) ?_
    split
    · exact .ite (.last fun args ↦ .last fun more ↦ .pure (isTold_extended _ _ _ more)) hgroup
    · exact hgroup
  · refine .ite (.last fun _ ↦ .last fun all ↦ ?_) hgroup
    split
    · exact .pure (isTold_path _ _ _)
    · exact .throw _

/-- The forms of types, of which those that hold a type are told by induction. -/
theorem ungrouped_gives_succ {steps : Nat} (htype : ∀ hasPlus, Gives IsTold (type hasPlus steps))
    (hparens : ∀ hasPlus, Gives IsTold (parenthesized hasPlus steps)) :
    Gives IsTold (ungrouped hasPlus (steps + 1)) := by
  rw [ungrouped]
  refine .left fun trees ↦ ?_
  -- one case for each form, in the order they are looked for
  refine .ite (fun _ ↦ Gives.from ?withLifetimes) fun _ ↦
    .ite (fun _ ↦ (hparens hasPlus).from) fun _ ↦ .ite (fun _ ↦ Gives.from ?function) fun _ ↦
    .ite (fun _ ↦ Gives.from ?path) fun _ ↦ .ite (fun _ ↦ Gives.from ?object) fun _ ↦
    .ite (fun _ ↦ Gives.from ?brackets) fun _ ↦ .ite (fun _ ↦ Gives.from ?pointer) fun _ ↦
    .ite (fun _ ↦ Gives.from ?reference) fun _ ↦ .ite (fun _ ↦ Gives.from ?never) fun _ ↦
    .ite (fun _ ↦ Gives.from ?some) fun _ ↦ .ite (fun hword ↦ ?underscore) fun _ ↦
    .ite (fun hlifetimes ↦ ?lifetimes) fun _ ↦ (Gives.missing _).from
  case withLifetimes =>
    refine .bind (boundLifetimes_gives steps) fun lifetimes h ↦ .last fun _ ↦ .ite ?_ (.ite ?_ ?_)
    · exact .last fun function ↦ .pure (isTold_other (h.append function))
    · refine .last fun path ↦ .last fun more ↦ .pure (isTold_other ?_)
      exact (h.append _).append _
    · exact .missing _
  case function => exact .bind (function_gives steps) fun _ h ↦ .pure (isTold_other h)
  case object =>
    refine .bind (word_gives "dyn") fun word hword ↦ .last fun star ↦ ?_
    refine .bind (bounds_gives steps) fun (hasTrait, tokens) h ↦ .ite (.pure ?_) (.throw _)
    refine isTold_other ?_
    rw [hword]
    exact .of_ident (by simp [h])
  case brackets =>
    refine .group <| .bind (htype true) fun elem helem ↦ .last fun _ ↦ .ite ?_ (.pure helem)
    exact .last fun _ ↦ .last fun _ ↦ .pure helem
  case pointer =>
    refine .bind (mark_gives "*") fun star hstar ↦ .last fun _ ↦ .ite ?_ (.missing _)
    refine .last fun word ↦ .last fun elem ↦ .pure (isTold_other ?_)
    rw [hstar]
    exact .mark _ ⟨by decide, by decide⟩
  case reference =>
    refine .last fun _ ↦ .last fun _ ↦ ?_
    extract_lets fromLifetime
    have hlifetime : ∀ life, Gives IsTold (fromLifetime life) := fun life ↦
      .last fun mutable ↦ .bind (htype false) fun elem helem ↦ .pure helem
    exact .ite (.last fun _ ↦ hlifetime _) (.last fun _ ↦ hlifetime _)
  case never =>
    refine .bind (mark_gives "!") fun mark hmark ↦ .pure (isTold_other ?_)
    rw [hmark]
    exact .mark _ ⟨by decide, by decide⟩
  case some =>
    refine .bind (word_gives "impl") fun word hword ↦ ?_
    refine .bind (bounds_gives steps) fun (hasTrait, tokens) h ↦ .ite (.pure ?_) (.throw _)
    refine isTold_other ?_
    rw [hword]
    exact .of_ident h
  case underscore =>
    refine .bind (take_one_gives hword) fun word h ↦ .pure (isTold_other ?_)
    rw [h]
    exact .underscore
  case lifetimes =>
    refine .bind (bounds_gives_lifetime steps hlifetimes) fun (hasTrait, tokens) h ↦ ?_
    obtain ⟨name, more, rfl⟩ := h
    exact .ite (.pure (isTold_other (.mark _ ⟨by decide, by decide⟩))) (.throw _)
  case path =>
    refine .bind (path_gives steps) fun path h ↦ .left fun trees ↦ ?_
    obtain ⟨lead, qualifier, last, rfl⟩ := h
    split
    · exact (Gives.pure (isTold_path _ _ _)).from
    · rename_i hlead heq
      cases heq
      have happend {more : List Tree} (hmore : more ≠ []) :
          IsTold (.other ((Ty.path lead qualifier last).tokens ++ more)) :=
        isTold_other (Ty.noWord_path_append hlead qualifier last hmore)
      refine .ite (fun _ ↦ Gives.from ?_) fun _ ↦ .ite (fun hplus ↦ ?_) fun _ ↦
        (Gives.pure (isTold_path _ _ _)).from
      · refine .bind (mark_gives "!") fun bang hbang ↦ .last fun _ ↦ ?_
        split
        · refine .last fun content ↦ .pure ?_
          rw [List.append_assoc]
          exact happend (by simp [hbang, Tree.op])
        · exact .missing _
      · rw [Bool.and_eq_true] at hplus
        exact .bind (moreBounds_gives steps hplus.2) fun more hmore ↦ .pure (happend hmore)
    · exact (Gives.pure (isTold_path _ _ _)).from

/-- A type that is written in parentheses. -/
def IsEnclosed (ty : Ty) : Prop := IsTold ty ∧ ∃ content, ty.tokens = [Tree.parens content]

theorem isEnclosed_other (content : List Tree) : IsEnclosed (.other [.parens content]) :=
  ⟨isTold_other (.mark [] rfl), content, rfl⟩

theorem isEnclosed_paren {elem : Ty} (h : IsTold elem) : IsEnclosed (.paren elem) :=
  ⟨h, elem.tokens, rfl⟩

theorem parenthesized_gives_succ {steps : Nat}
    (htype : ∀ hasPlus, Gives IsTold (type hasPlus steps)) :
    Gives IsTold (parenthesized hasPlus (steps + 1)) := by
  rw [parenthesized]
  refine .bind (P := fun read ↦ IsEnclosed read.1) (.group <| .last fun isAtEnd ↦ ?inner)
    fun read henclosed ↦ ?further
  case inner =>
    refine .ite (.pure (isEnclosed_other [])) <| .left fun trees ↦
      .ite (fun hlifetimes ↦ ?lifetimes) fun _ ↦ .ite (fun _ ↦ Gives.from ?maybe) fun _ ↦
      Gives.from ?types
    case lifetimes =>
      refine .bind (bounds_gives_lifetime steps hlifetimes) fun read h ↦ ?_
      obtain ⟨hasTrait, tokens⟩ := read
      obtain ⟨name, more, rfl⟩ := h
      refine .ite (.pure (isEnclosed_paren (isTold_other ?_))) (.throw _)
      exact .mark _ ⟨by decide, by decide⟩
    case maybe => exact .last fun read ↦ .pure (isEnclosed_other read.2)
    case types =>
      refine .bind (htype true) fun first hfirst ↦ .last fun _ ↦ .ite ?_ ?_
      · exact .last fun more ↦ .pure (isEnclosed_other _)
      · exact .pure (isEnclosed_paren hfirst)
  case further =>
    obtain ⟨inner, isTrait⟩ := read
    obtain ⟨htold, content, htokens⟩ := henclosed
    refine .last fun _ ↦ .ite (.last fun more ↦ .pure (isTold_other ?_)) (.pure htold)
    rw [htokens]
    exact .mark _ rfl

/-- Every reader of a type gives one that is told. -/
structure TypesAreTold (steps : Nat) : Prop where
  type : ∀ hasPlus, Gives IsTold (type hasPlus steps)
  ungrouped : ∀ hasPlus, Gives IsTold (ungrouped hasPlus steps)
  grouped : Gives IsTold (grouped steps)
  parenthesized : ∀ hasPlus, Gives IsTold (parenthesized hasPlus steps)

theorem typesAreTold (steps : Nat) : TypesAreTold steps := by
  induction steps with
  | zero => exact ⟨fun _ ↦ .throw _, fun _ ↦ .throw _, .throw _, fun _ ↦ .throw _⟩
  | succ steps ih =>
    refine ⟨fun hasPlus ↦ ?_, fun _ ↦ ungrouped_gives_succ ih.type ih.parenthesized,
      grouped_gives_succ ih.type, fun _ ↦ parenthesized_gives_succ ih.type⟩
    rw [type]
    exact .last fun _ ↦ .ite ih.grouped (ih.ungrouped hasPlus)

theorem type_gives (hasPlus : Bool) (steps : Nat) : Gives IsTold (type hasPlus steps) :=
  (typesAreTold steps).type hasPlus

theorem noWord_take_two {text : String} {delimiter : Delimiter} (hword : words text trees = true)
    (hgroup : groups delimiter (trees.drop 1) = true) : Tree.NoWord (trees.take 2) := by
  match trees, hword, hgroup with
  | .ident name :: next :: more, _, _ => exact .words name next []

/-- A field without a name may have a struct for its type, which is a word and what is in braces. -/
theorem fieldItem_gives : Gives (fun field ↦ IsTold field.type) fieldItem := by
  refine .last fun attrs ↦ .last fun visibility ↦ .last fun trees ↦ ?_
  extract_lets isNameless fromName
  have hname : ∀ name, Gives (fun field ↦ IsTold field.type) (fromName name) := by
    intro name
    refine .last fun _ ↦ .left fun trees ↦ .ite (fun hstruct ↦ ?_) fun _ ↦ Gives.from ?_
    · rw [Bool.and_eq_true, Bool.and_eq_true, Bool.or_eq_true] at hstruct
      obtain ⟨⟨-, hword⟩, hbraces⟩ := hstruct
      have htake : Tree.NoWord (trees.take 2) :=
        hword.elim (noWord_take_two · hbraces) (noWord_take_two · hbraces)
      exact .take (Gives.from <| .pure (isTold_other htake))
    · exact .bind (.last fun steps ↦ type_gives true steps) fun _ h ↦ .pure h
  exact .ite (.last fun _ ↦ hname _) (.last fun _ ↦ hname _)

end Reader

end FieldPaths.Rust
