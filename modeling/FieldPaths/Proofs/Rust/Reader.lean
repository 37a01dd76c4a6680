import FieldPaths.Rust.ItemReader

/-!
# What readers give

A reader gives a value or fails, and what is said of its value here holds whatever there was to
read. So it is proved along the reader: of what is read in the end, and of what was read on the way
as far as that matters. Where a reader has looked at what is left, the trees that are seen there are
known as well, and taking some of them leaves the others to be seen.
-/

namespace FieldPaths.Rust

/-! ## Trees that are seen -/

namespace Tree

theorem seenAll_append (front back : List Tree) :
    seenAll (front ++ back) = seenAll front ++ seenAll back := by
  induction front with
  | nil => rfl
  | cons t front ih => rw [List.cons_append, seenAll, seenAll, ih, List.append_assoc]

mutual

theorem seenAll_dropSeen {count : Nat} (tree : Tree) (hpos : 0 < count)
    (hcount : count ≤ tree.seen.length) : seenAll (tree.dropSeen count) = tree.seen.drop count := by
  have hone (h : tree.seen = [tree]) : tree.seen.drop count = [] := by
    rw [h]
    exact List.drop_eq_nil_of_le hpos
  match tree with
  | .group .invisible content => exact seenAll_dropAllSeen count content
  | .ident _ | .punct .. | .literal _ => exact (hone rfl).symm
  | .group .paren _ | .group .bracket _ | .group .brace _ => exact (hone rfl).symm

/-- What is not taken is still seen. -/
theorem seenAll_dropAllSeen (count : Nat) (trees : List Tree) :
    seenAll (dropAllSeen count trees) = (seenAll trees).drop count := by
  match trees with
  | [] => exact List.drop_nil.symm
  | tree :: more =>
    rw [dropAllSeen, seenAll, List.drop_append]
    split
    · rename_i hzero
      rw [hzero, Nat.zero_sub, List.drop_zero, List.drop_zero, seenAll]
    · rename_i hpos
      split
      · rename_i hlong
        rw [seenAll_dropAllSeen, List.drop_eq_nil_of_le (Nat.le_of_lt hlong), List.nil_append]
      · rename_i hshort
        have hle := Nat.le_of_not_lt hshort
        rw [seenAll_append, seenAll_dropSeen tree (Nat.pos_of_ne_zero hpos) hle,
          Nat.sub_eq_zero_of_le hle, List.drop_zero]

end

end Tree

namespace Reader

variable {α β : Type} {P : α → Prop} {Q : β → Prop}

/-- All values that a reader gives have a property. -/
def Gives (P : α → Prop) (reader : Reader α) : Prop :=
  ∀ input value rest, reader.run input = .ok (value, rest) → P value

theorem Gives.pure {value : α} (h : P value) : Gives P (pure value) := by
  intro input value' rest hrun
  cases hrun
  exact h

theorem Gives.throw (fault : Fault) : Gives P (throw fault) := by
  intro input value rest hrun
  cases hrun

/-- The same when it is known what is seen in what is left. -/
def GivesFrom (trees : List Tree) (P : α → Prop) (reader : Reader α) : Prop :=
  ∀ input value rest, Tree.seenAll input.trees = trees →
    reader.run input = .ok (value, rest) → P value

variable {trees : List Tree}

theorem Gives.from {reader : Reader α} (h : Gives P reader) : GivesFrom trees P reader :=
  fun input value rest _ ↦ h input value rest

theorem GivesFrom.imp {P' : α → Prop} {reader : Reader α} (h : GivesFrom trees P reader)
    (himp : ∀ value, P value → P' value) : GivesFrom trees P' reader :=
  fun input value rest hseen hrun ↦ himp value (h input value rest hseen hrun)

theorem GivesFrom.bind {reader : Reader α} {next : α → Reader β}
    (hreader : GivesFrom trees P reader) (hnext : ∀ value, P value → Gives Q (next value)) :
    GivesFrom trees Q (reader >>= next) := by
  intro input value rest hseen hrun
  change (reader.run input >>= fun read ↦ (next read.1).run read.2) = _ at hrun
  cases hfirst : reader.run input with
  | error fault =>
    rw [hfirst] at hrun
    cases hrun
  | ok read =>
    rw [hfirst] at hrun
    exact hnext read.1 (hreader _ _ _ hseen hfirst) _ _ _ hrun

theorem Gives.bind {reader : Reader α} {next : α → Reader β} (hreader : Gives P reader)
    (hnext : ∀ value, P value → Gives Q (next value)) : Gives Q (reader >>= next) :=
  fun input value rest ↦ GivesFrom.bind hreader.from hnext input value rest rfl

/-- What comes last decides. -/
theorem Gives.last {reader : Reader α} {next : α → Reader β}
    (hnext : ∀ value, Gives Q (next value)) : Gives Q (reader >>= next) :=
  Gives.bind (P := fun _ ↦ True) (fun _ _ _ _ ↦ trivial) fun value _ ↦ hnext value

theorem Gives.ite {c : Prop} [Decidable c] {yes no : Reader α} (hyes : Gives P yes)
    (hno : Gives P no) : Gives P (if c then yes else no) := by
  split
  · exact hyes
  · exact hno

theorem Gives.missing (wanted : List String) : Gives P (missing wanted) :=
  .last fun _ ↦ .throw _

theorem Gives.inside {trees behind : List Tree} {content : Reader α} (h : Gives P content) :
    Gives P (inside trees behind content) :=
  .last fun _ ↦ .bind h fun _ hvalue ↦ .last fun _ ↦ .pure hvalue

theorem Gives.group {delimiter : Delimiter} {content : Reader α} (h : Gives P content) :
    Gives P (group delimiter content) := by
  rw [Reader.group]
  refine .last fun input ↦ ?_
  split
  · exact .ite (.inside h) (.missing _)
  · exact .missing _

theorem Gives.invisible {content : Reader α} (h : Gives P content) :
    Gives P (invisible content) := by
  rw [Reader.invisible]
  refine .last fun input ↦ ?_
  split
  · exact .inside h
  · exact .missing _

theorem Gives.left {next : List Tree → Reader α} (h : ∀ trees, GivesFrom trees P (next trees)) :
    Gives P (left >>= next) :=
  fun input value rest ↦ h (Tree.seenAll input.trees) input value rest rfl

theorem GivesFrom.left {next : List Tree → Reader α} (h : GivesFrom trees P (next trees)) :
    GivesFrom trees P (left >>= next) := by
  intro input value rest hseen hrun
  subst hseen
  exact h input value rest rfl hrun

theorem GivesFrom.take {count : Nat} {next : List Tree → Reader α}
    (h : GivesFrom (trees.drop count) P (next (trees.take count))) :
    GivesFrom trees P (take count >>= next) := by
  intro input value rest hseen hrun
  subst hseen
  exact h _ value rest (Tree.seenAll_dropAllSeen count input.trees) hrun

theorem GivesFrom.ite {c : Prop} [Decidable c] {yes no : Reader α}
    (hyes : c → GivesFrom trees P yes) (hno : ¬ c → GivesFrom trees P no) :
    GivesFrom trees P (if c then yes else no) := by
  split
  · exact hyes ‹_›
  · exact hno ‹_›

/-! ## The visibility of a struct -/

/-- A visibility that is written starts with its word. -/
def IsVisibility (trees : List Tree) : Prop := ∀ t ∈ trees.head?, t = .ident "pub"

theorem IsVisibility.append {word more : List Tree} (h : word.head? = some (.ident "pub")) :
    IsVisibility (word ++ more) := by
  intro t ht
  rw [List.head?_append, h, Option.some_or, Option.mem_some_iff] at ht
  exact ht.symm

theorem head?_of_words {word : String} {trees : List Tree} (h : words word trees = true) :
    trees.head? = some (.ident word) := by
  unfold words at h
  split at h
  · rw [List.head?_cons, beq_iff_eq.mp h]
  · cases h

theorem visibility_gives : Gives IsVisibility visibility := by
  rw [visibility]
  refine .last fun input ↦ ?_
  split
  · exact .last fun _ ↦ .pure nofun
  · refine .left fun trees ↦ .ite (fun hpub ↦ .take (Gives.from ?_)) fun _ ↦ (Gives.pure nofun).from
    have hword : (trees.take 1).head? = some (.ident "pub") := by
      rw [List.head?_take, if_neg Nat.one_ne_zero, head?_of_words hpub]
    -- whatever limits the visibility comes behind its word
    exact .last fun limit ↦ .pure (.append hword)

theorem structItem_gives : Gives (fun item ↦ IsVisibility item.visibility) structItem := by
  refine .last fun _ ↦ .bind visibility_gives fun _ hvisibility ↦ ?_
  exact .last fun _ ↦ .last fun _ ↦ .last fun _ ↦ .last fun _ ↦ .pure hvisibility

/-! ## Lists of things -/

theorem many_gives {goesOn : List Tree → Bool} {reader : Reader α} (h : Gives P reader) :
    Gives (∀ a ∈ ·, P a) (many goesOn reader) := by
  have hloop (times : Nat) : Gives (∀ a ∈ ·, P a) (many.loop goesOn reader times) := by
    induction times with
    | zero => exact .pure (List.forall_mem_nil P)
    | succ times ih =>
      refine .last fun _ ↦ .ite (.bind h fun first hfirst ↦ ?_) (.pure (List.forall_mem_nil P))
      exact .bind ih fun more hmore ↦ .pure (List.forall_mem_cons.mpr ⟨hfirst, hmore⟩)
  exact .last fun trees ↦ hloop trees.length

theorem commaSeparated_gives {stop : Reader Bool} {reader : Reader α} (h : Gives P reader) :
    Gives (fun (values, _) ↦ ∀ a ∈ values, P a) (commaSeparated stop reader) := by
  have hloop (times : Nat) :
      Gives (fun (values, _) ↦ ∀ a ∈ values, P a) (commaSeparated.loop stop reader times) := by
    induction times with
    | zero => exact .pure (List.forall_mem_nil P)
    | succ times ih =>
      refine .last fun _ ↦ .ite (.pure (List.forall_mem_nil P)) (.bind h fun first hfirst ↦ ?_)
      refine .last fun _ ↦ .ite (.pure (List.forall_mem_singleton.mpr hfirst)) (.last fun _ ↦ ?_)
      exact .bind ih fun (more, _) hmore ↦ .pure (List.forall_mem_cons.mpr ⟨hfirst, hmore⟩)
  exact .last fun trees ↦ hloop _

/-! ## Names -/

theorem name_gives : Gives (isName · = true) name := by
  refine .last fun trees ↦ ?_
  split
  · rename_i text more
    by_cases hname : isName text = true
    · rw [if_pos hname]
      exact .last fun _ ↦ .pure hname
    · rw [if_neg hname]
      exact .throw _
  · exact .missing _

/-- The word that is seen is the one that is taken. -/
theorem someWord_gives {word : String} (h : words word trees = true) :
    GivesFrom trees (· = word) someWord := by
  refine .left ?_
  unfold words at h
  split at h
  · obtain rfl := beq_iff_eq.mp h
    refine Gives.from ?_
    exact .last fun _ ↦ .pure rfl
  · cases h

/-! ## Attributes and fields -/

theorem plainPath_gives : Gives (fun (_, path) ↦ path ≠ []) plainPath := by
  refine .last fun root ↦ .last fun trees ↦ ?_
  extract_lets fromFirst
  have hfirst : Gives (fun (_, path) ↦ path ≠ []) (fromFirst ()) :=
    .last fun first ↦ .last fun more ↦ .pure (List.cons_ne_nil first more)
  exact .ite (.last fun _ ↦ hfirst) hfirst

/-- An attribute that is read has a name. -/
theorem attrContent_gives : Gives (·.path ≠ []) attrContent := by
  refine .last fun trees ↦ ?_
  extract_lets fromPath
  have hpath : ∀ path, path.2 ≠ [] → Gives (·.path ≠ []) (fromPath path) := by
    intro path h
    refine .last fun trees ↦ ?_
    extract_lets fromRest
    have hrest : ∀ rest, Gives (·.path ≠ []) (fromRest rest) := fun _ ↦ .pure h
    split
    · exact .last fun _ ↦ hrest _
    · refine .ite ?_ (.last fun _ ↦ hrest _)
      refine .last fun _ ↦ .last fun _ ↦ .ite (.throw _) ?_
      exact .ite (.last fun _ ↦ hrest _) (.last fun _ ↦ hrest _)
  refine .ite (.last fun word ↦ ?_) (.bind plainPath_gives hpath)
  exact .bind (P := fun path ↦ path.2 ≠ []) (.pure (List.cons_ne_nil word [])) hpath

theorem attrs_gives : Gives (∀ attr ∈ ·, attr.path ≠ []) attrs :=
  many_gives <| .last fun _ ↦ .group attrContent_gives

/-- A field has a name, and so have its attributes. -/
def HasNames (field : FieldItem) : Prop :=
  unraw field.name ≠ "" ∧ ∀ attr ∈ field.attrs, attr.path ≠ []

theorem unraw_ne_empty {word : String} (h : isName word = true) : unraw word ≠ "" := by
  rw [isName, Bool.or_eq_true, decide_eq_true_iff] at h
  rintro hempty
  rcases h with rfl | h
  · exact absurd hempty (by decide)
  · rw [hempty] at h
    exact absurd h (by simp)

theorem fieldItem_gives_names : Gives HasNames fieldItem := by
  refine .bind attrs_gives fun attrs hattrs ↦ .last fun visibility ↦ .left fun trees ↦ ?_
  extract_lets isNameless fromName
  have hname : ∀ name, unraw name ≠ "" → Gives HasNames (fromName name) := by
    intro name h
    refine .last fun _ ↦ .left fun trees ↦ Gives.from ?_
    exact .ite (.last fun _ ↦ .pure ⟨h, hattrs⟩) (.last fun _ ↦ .pure ⟨h, hattrs⟩)
  refine .ite (fun hnameless ↦ ?nameless) fun _ ↦ ?named
  case nameless =>
    refine .bind (someWord_gives hnameless) fun name h ↦ hname name ?_
    rw [h]
    decide
  case named => exact .bind name_gives.from fun name h ↦ hname name (unraw_ne_empty h)

/-! ## Items -/

variable {S : StructItem → Prop}

/-- What all fields have that are read, the named fields of a struct have. -/
theorem structBody_gives {F : FieldItem → Prop} (h : Gives F fieldItem) :
    Gives (fun (fields, _) ↦ ∀ field ∈ fields.list, F field) structBody := by
  refine .last fun _ ↦ .last fun conditions ↦ .last fun trees ↦ .ite ?tuple <| .ite ?named <|
    .ite (.last fun _ ↦ .pure nofun) (.ite (.missing _) (.missing _))
  case tuple =>
    refine .last fun (fields, hasTrailingComma) ↦ .last fun _ ↦ .last fun conditions ↦ ?_
    exact .last fun _ ↦ .ite (.last fun _ ↦ .pure nofun) (.missing _)
  case named =>
    exact .bind (.group (commaSeparated_gives h)) fun (fields, _) hfields ↦ .pure hfields

theorem structItem_gives_fields :
    Gives (fun item ↦ ∀ field ∈ item.fields.list, HasNames field) structItem := by
  refine .last fun _ ↦ .last fun _ ↦ .last fun _ ↦ .last fun _ ↦ .last fun _ ↦ ?_
  exact .bind (structBody_gives fieldItem_gives_names) fun (fields, conditions) h ↦ .pure h

/-- An item that is a struct has the property. -/
def OfStruct (S : StructItem → Prop) (item : Item) : Prop := ∀ s, item = .struct s → S s

theorem bracedType_gives (word : String) (content : Reader α) :
    Gives (OfStruct S) (bracedType word content) :=
  .last fun _ ↦ .last fun _ ↦ .last fun _ ↦ .last fun _ ↦ .last fun _ ↦ .pure nofun

theorem traitItem_gives : Gives (OfStruct S) traitItem :=
  .last fun _ ↦ .last fun _ ↦ .last fun _ ↦ .last fun _ ↦ .last fun _ ↦
    .ite (.pure nofun) (.pure nofun)

theorem item_gives (h : Gives S structItem) : Gives (OfStruct S) item := by
  have hother {γ : Type} (reader : Reader γ) :
      Gives (OfStruct S) (do let _ ← reader; return Item.other) := .last fun _ ↦ .pure nofun
  refine .last fun _ ↦ .last fun _ ↦ .last fun _ ↦ .last fun _ ↦ ?_
  -- one case for each word that an item starts with, in the order they are looked for
  refine .ite (hother _) <| .ite ?linked <| .ite (hother _) <| .ite ?unchecked <|
    .ite (hother _) <| .ite ?struct <| .ite (bracedType_gives _ _) <| .ite (bracedType_gives _ _) <|
    .ite traitItem_gives <| .ite (hother _) <| .ite (hother _) <| .ite (hother _) (.missing _)
  case linked => exact .ite (hother _) (hother _)
  case unchecked => exact .ite traitItem_gives (.ite (hother _) (.last fun _ ↦ .missing _))
  case struct =>
    refine .last fun _ ↦ .bind h fun s hs ↦ .pure ?_
    intro s' heq
    cases heq
    exact hs

end Reader

/-- What is read has what all have that a reader gives. -/
theorem Reader.of_readAll {α : Type} {P : α → Prop} {reader : Reader α} {trees : List Tree}
    {value : α} (hgives : Gives P reader) (h : readAll reader trees = .ok value) : P value := by
  rw [readAll] at h
  split at h
  · cases h
  · rename_i hrun
    split at h
    · cases h
    · cases h
      exact hgives _ _ _ hrun

namespace StructItem

variable {trees : List Tree} {item : StructItem}

/-- A struct that is read has what all structs have that are read. -/
theorem of_ofTrees {S : StructItem → Prop} (hgives : Reader.Gives S Reader.structItem)
    (h : Item.ofTrees trees = .ok (.struct item)) : S item :=
  Reader.of_readAll (Reader.item_gives hgives) h item rfl

theorem isVisibility_of_ofTrees (h : Item.ofTrees trees = .ok (.struct item)) :
    Reader.IsVisibility item.visibility :=
  of_ofTrees Reader.structItem_gives h

theorem hasNames_of_ofTrees (h : Item.ofTrees trees = .ok (.struct item)) :
    ∀ field ∈ item.fields.list, Reader.HasNames field :=
  of_ofTrees Reader.structItem_gives_fields h

end StructItem

end FieldPaths.Rust
