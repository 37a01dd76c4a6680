import FieldPaths.Proofs.CommandLine.Run
import FieldPaths.Proofs.Names

/-!
# All or nothing

A run that generates writes one file or prints one text, and does neither where anything is wrong.
That nothing else happens is a matter of two things. An outcome names at most one file, and only
where all that can go wrong before is behind it. And writing a file to a tree changes the tree in
one place (`FileTree.write_eq_ok`): the path is followed to a folder that is there, so no folder is
made on the way, and the place is not that of a folder, so nothing under it is lost.

The place is found again by the same path afterwards, because following it only asks for names in
folders, and no folder loses a name.

Writing may be refused for reasons that a tree knows nothing about. So the way of writing is a
parameter of what is said about runs, and it does what writing to the tree does whenever it does
anything.
-/

namespace FieldPaths.CommandLine

open Generated (bind_eq_ok)

namespace FileTree

variable {tree after : FileTree} {members inner : List (String × FileTree)}
  {name other : String} {parent place rest : List String} {text content : Option String}

/-! ## Places in a tree -/

theorem lookup_cons_eq_ite {first : String} {old : FileTree} :
    ((first, old) :: members).lookup other
      = if other = first then some old else members.lookup other := by
  rw [List.lookup_cons]
  by_cases h : other = first
  · rw [if_pos h, beq_iff_eq.mpr h]
  · rw [if_neg h, beq_eq_false_iff_ne.mpr h]

theorem lookup_setMember (new : FileTree) : (setMember members name new).lookup other
    = if other = name then some new else members.lookup other := by
  induction members with
  | nil => exact lookup_cons_eq_ite
  | cons member more ih =>
    obtain ⟨first, old⟩ := member
    rw [setMember, lookup_cons_eq_ite]
    by_cases hfirst : first = name
    · subst hfirst
      rw [if_pos (beq_self_eq_true first), lookup_cons_eq_ite]
      split <;> rfl
    · rw [if_neg (by simpa using hfirst), lookup_cons_eq_ite, ih]
      by_cases hother : other = first
      · rw [if_pos hother, if_neg (hother ▸ hfirst), if_pos hother]
      · rw [if_neg hother, if_neg hother]

theorem isSome_lookup_setMember (new : FileTree) (h : (members.lookup other).isSome = true) :
    ((setMember members name new).lookup other).isSome = true := by
  rw [lookup_setMember]
  split
  · rfl
  · exact h

theorem get?_cons : (folder members).get? (name :: rest)
    = (members.lookup name).bind (·.get? rest) := by
  rw [get?]
  cases members.lookup name <;> rfl

theorem get?_append (tree : FileTree) (names more : List String) :
    tree.get? (names ++ more) = (tree.get? names).bind (·.get? more) := by
  induction names generalizing tree with
  | nil => rw [List.nil_append, get?, Option.bind_some]
  | cons name names ih =>
    cases tree with
    | file text => rfl
    | folder members =>
      rw [List.cons_append, get?_cons, get?_cons, Option.bind_assoc]
      exact congrArg _ (funext ih)

/-- A folder that is passed on the way is a folder of folders. -/
theorem get?_cons_eq_folder (h : tree.get? (name :: rest) = some (folder inner)) :
    ∃ members next, tree = folder members ∧ members.lookup name = some next ∧
      next.get? rest = some (folder inner) := by
  cases tree with
  | file text => cases h
  | folder members =>
    rw [get?_cons, Option.bind_eq_some_iff] at h
    obtain ⟨next, hnext, h⟩ := h
    exact ⟨members, next, rfl, hnext, h⟩

theorem get?_put_cons (new : FileTree) (names : List String) :
    (put new (folder members) (name :: names)).get? (other :: rest) =
      if other = name then (put new ((members.lookup name).getD (folder [])) names).get? rest
      else (folder members).get? (other :: rest) := by
  rw [put, get?_cons, lookup_setMember]
  split
  · rw [Option.bind_some]
  · rw [get?_cons]

/-! ## Putting a file into a folder

The names lead to a folder that is there, and no folder has the last name in it. -/

/-- The files afterwards are the new one and those from before in other places. -/
theorem get?_put_file (hparent : tree.get? parent = some (folder members))
    (hfree : ∀ inner, members.lookup name ≠ some (folder inner)) :
    (put (file text) tree (parent ++ [name])).get? place = some (file content) ↔
      (place = parent ++ [name] ∧ content = text) ∨
        (place ≠ parent ++ [name] ∧ tree.get? place = some (file content)) := by
  induction parent generalizing tree place with
  | nil =>
    obtain rfl := Option.some.inj hparent
    cases place with
    | nil => simp [put, get?]
    | cons first rest =>
      rw [List.nil_append, get?_put_cons]
      by_cases hfirst : first = name
      · subst hfirst
        rw [if_pos rfl, put, get?_cons]
        cases rest with
        | nil => simp [get?, eq_comm]
        | cons second rest =>
          -- nothing is behind a file, be it the new one or the one from before
          cases hold : members.lookup first with
          | none => simp [get?]
          | some old =>
            cases old with
            | file text => simp [get?]
            | folder inner => exact absurd hold (hfree inner)
      · simp [hfirst]
  | cons step parent ih =>
    obtain ⟨outer, next, rfl, hnext, hinside⟩ := get?_cons_eq_folder hparent
    cases place with
    | nil => simp [put, get?]
    | cons first rest =>
      rw [List.cons_append, get?_put_cons]
      by_cases hfirst : first = step
      · subst hfirst
        rw [if_pos rfl, hnext, Option.getD_some, ih hinside, get?_cons, hnext, Option.bind_some]
        simp
      · simp [hfirst]

/-- Every folder is still there, with the names it had. -/
theorem get?_put_folder (hparent : tree.get? parent = some (folder members))
    (hfree : ∀ inner, members.lookup name ≠ some (folder inner))
    (h : tree.get? place = some (folder inner)) :
    ∃ inner', (put (file text) tree (parent ++ [name])).get? place = some (folder inner') ∧
      ∀ n, (inner.lookup n).isSome = true → (inner'.lookup n).isSome = true := by
  induction parent generalizing tree place with
  | nil =>
    obtain rfl := Option.some.inj hparent
    cases place with
    | nil =>
      obtain ⟨rfl⟩ := Option.some.inj h
      exact ⟨_, rfl, fun _ ↦ isSome_lookup_setMember _⟩
    | cons first rest =>
      rw [List.nil_append, get?_put_cons]
      by_cases hfirst : first = name
      · subst hfirst
        rw [get?_cons, Option.bind_eq_some_iff] at h
        obtain ⟨old, hold, h⟩ := h
        cases old with
        | file text => cases rest <;> cases h
        | folder inner => exact absurd hold (hfree inner)
      · rw [if_neg hfirst]
        exact ⟨inner, h, fun _ hn ↦ hn⟩
  | cons step parent ih =>
    obtain ⟨outer, next, rfl, hnext, hinside⟩ := get?_cons_eq_folder hparent
    cases place with
    | nil =>
      obtain ⟨rfl⟩ := Option.some.inj h
      exact ⟨_, rfl, fun _ ↦ isSome_lookup_setMember _⟩
    | cons first rest =>
      rw [List.cons_append, get?_put_cons]
      by_cases hfirst : first = step
      · subst hfirst
        rw [get?_cons, hnext, Option.bind_some] at h
        rw [if_pos rfl, hnext, Option.getD_some]
        exact ih hinside h
      · rw [if_neg hfirst]
        exact ⟨inner, h, fun _ hn ↦ hn⟩

/-! ## Paths -/

theorem follow_append (tree : FileTree) (names more : List String) :
    tree.follow place (names ++ more) = (tree.follow place names).bind (tree.follow · more) := by
  induction names generalizing place with
  | nil => rfl
  | cons name names ih =>
    rw [List.cons_append, follow, follow]
    cases tree.get? place with
    | none => rfl
    | some here =>
      cases here with
      | file text => rfl
      | folder members =>
        dsimp only
        split
        · exact ih
        · split
          · exact ih
          · split
            · exact ih
            · rfl

/-- A way through folders stays one when there are more names in them. -/
theorem follow_mono {here there : List String} {names : List String}
    (hfolders : ∀ place inner, tree.get? place = some (folder inner) →
      ∃ inner', after.get? place = some (folder inner') ∧
        ∀ n, (inner.lookup n).isSome = true → (inner'.lookup n).isSome = true)
    (h : tree.follow here names = .ok there) : after.follow here names = .ok there := by
  induction names generalizing here with
  | nil => exact h
  | cons name names ih =>
    rw [follow] at h ⊢
    cases hplace : tree.get? here with
    | none =>
      rw [hplace] at h
      cases h
    | some found =>
      cases found with
      | file text =>
        rw [hplace] at h
        cases h
      | folder inner =>
        obtain ⟨inner', hplace', hnames⟩ := hfolders here inner hplace
        rw [hplace] at h
        rw [hplace']
        dsimp only at h ⊢
        split at h
        · rename_i hstay
          rw [if_pos hstay]
          exact ih h
        · rename_i hstay
          rw [if_neg hstay]
          split at h
          · rename_i hback
            rw [if_pos hback]
            exact ih h
          · rename_i hback
            rw [if_neg hback]
            split at h
            · rename_i hname
              rw [if_pos (hnames name hname)]
              exact ih h
            · cases h

theorem getLast?_intercalate_concat_nil (c : Char) (first : List Char) (front : List (List Char)) :
    ([c].intercalate (first :: front ++ [[]])).getLast? = some c := by
  induction front generalizing first with
  | nil => simp [List.intercalate]
  | cons second front ih =>
    rw [List.cons_append, List.cons_append, List.intercalate_cons_cons, List.getLast?_append,
      ← List.cons_append, ih]
    rfl

/-- The last of the names of a path is empty only if the path ends in a slash. -/
theorem exists_namesOf {path : String} (hne : path ≠ "")
    (hslash : path.toList.getLast? ≠ some '/') :
    ∃ front last, namesOf path = front ++ [last] ∧ last ≠ "" := by
  have hpieces : path.toList.splitOn '/' ≠ [] := List.splitOn_ne_nil '/' path.toList
  obtain ⟨front, last, hsplit⟩ : ∃ front last, path.toList.splitOn '/' = front ++ [last] :=
    ⟨_, _, (List.dropLast_concat_getLast hpieces).symm⟩
  refine ⟨front.map String.ofList, String.ofList last, ?_, fun hlast ↦ ?_⟩
  · rw [namesOf, hsplit, List.map_append, List.map_singleton]
  · obtain rfl : last = [] := String.ofList_injective hlast
    have hpath : ['/'].intercalate (front ++ [[]]) = path.toList := by
      rw [← hsplit]
      exact List.intercalate_splitOn '/'
    cases front with
    | nil => exact hne (String.toList_inj.mp hpath.symm)
    | cons first front =>
      rw [← hpath, getLast?_intercalate_concat_nil] at hslash
      exact hslash rfl

/-- The folder that a file is written in, and its name there. A name that stands for a folder, or
that a folder has, is that of no file. -/
theorem target_cases {current : List String} {path : String} {names : List String}
    (h : tree.target current path = .ok names) : path ≠ "" ∧ ∃ parent members name,
      tree.follow (start current path)
          ((namesOf path).reverse.dropWhile (· == "")).reverse.dropLast = .ok parent ∧
        (if path.toList.getLast? == some '/' then ""
          else ((namesOf path).reverse.dropWhile (· == "")).reverse.getLastD "") = name ∧
        tree.get? parent = some (folder members) ∧ name ≠ "" ∧ name ≠ "." ∧ name ≠ ".." ∧
        (∀ inner, members.lookup name ≠ some (folder inner)) ∧ names = parent ++ [name] := by
  rw [target] at h
  by_cases hpath : path.isEmpty = true
  · rw [if_pos hpath] at h
    cases h
  · rw [if_neg hpath] at h
    obtain ⟨parent, hparent, h⟩ := bind_eq_ok.mp h
    generalize (if path.toList.getLast? == some '/' then ""
      else ((namesOf path).reverse.dropWhile (· == "")).reverse.getLastD "") = name at h
    refine ⟨by simpa using hpath, parent, ?_⟩
    split at h
    · rename_i members hmembers
      split at h
      · cases h
      · rename_i hfile
        simp only [Bool.or_eq_true, beq_iff_eq, not_or] at hfile
        split at h
        · cases h
        · rename_i hfree
          exact ⟨members, name, hparent, rfl, hmembers, hfile.1.1, hfile.1.2, hfile.2,
            fun inner hinner ↦ hfree inner hinner, (Except.ok.inj h).symm⟩
    · cases h
    · cases h

/-- Where a file is written: in a folder that is there, under the last of the names of the path,
which is not that of a folder. -/
theorem target_eq_ok {current : List String} {path : String} {names : List String}
    (h : tree.target current path = .ok names) :
    ∃ front parent members name, path ≠ "" ∧ namesOf path = front ++ [name] ∧
      tree.follow (start current path) front = .ok parent ∧
      tree.get? parent = some (folder members) ∧ name ≠ "" ∧ name ≠ "." ∧ name ≠ ".." ∧
      (∀ inner, members.lookup name ≠ some (folder inner)) ∧ names = parent ++ [name] := by
  obtain ⟨hpath, parent, members, name, hfollow, hname, hmembers, hempty, hrest⟩ := target_cases h
  by_cases hslash : path.toList.getLast? = some '/'
  · rw [if_pos (beq_iff_eq.mpr hslash)] at hname
    exact absurd hname.symm hempty
  · obtain ⟨front, last, hnames, hlast⟩ := exists_namesOf hpath hslash
    have hall : ((namesOf path).reverse.dropWhile (· == "")).reverse = front ++ [last] := by
      rw [hnames, List.reverse_append, List.reverse_singleton, List.singleton_append,
        List.dropWhile_cons_of_neg (by simpa using hlast), List.reverse_cons, List.reverse_reverse]
    rw [if_neg (by simpa using hslash), hall, List.getLastD_concat] at hname
    rw [hall, List.dropLast_concat] at hfollow
    subst hname
    exact ⟨front, parent, members, last, hpath, hnames, hfollow, hmembers, hempty, hrest⟩

/-! ## Writing -/

variable {current : List String} {path : String} {written : String}

/-- Writing makes the file at the path, and leaves all other files as they are. -/
theorem write_eq_ok (h : tree.write current path written = .ok after) :
    ∃ names, tree.target current path = .ok names ∧
      after.find current path = .file (.ok written) ∧
      ∀ place content, after.get? place = some (file content) ↔
        (place = names ∧ content = some written) ∨
          (place ≠ names ∧ tree.get? place = some (file content)) := by
  rw [write] at h
  cases htarget : tree.target current path with
  | error fault =>
    rw [htarget] at h
    cases h
  | ok names =>
    rw [htarget] at h
    obtain rfl := Except.ok.inj h
    obtain ⟨front, parent, members, name, hpath, hnames, hfollow, hparent, hempty, hdot, hdots,
      hfree, rfl⟩ := target_eq_ok htarget
    have hfiles (place : List String) (content : Option String) :
        (put (file (some written)) tree (parent ++ [name])).get? place = some (file content) ↔ _ :=
      get?_put_file hparent hfree
    refine ⟨_, rfl, ?_, hfiles⟩
    -- the way there is the same as before, and the name is there now
    have hnew : (put (file (some written)) tree (parent ++ [name])).get? (parent ++ [name])
        = some (file (some written)) := (hfiles _ _).mpr (.inl ⟨rfl, rfl⟩)
    obtain ⟨inner, hinner, -⟩ :
        ∃ inner, (put (file (some written)) tree (parent ++ [name])).get? parent
          = some (folder inner) ∧ _ := get?_put_folder hparent hfree hparent
    have hname : (inner.lookup name).isSome = true := by
      rw [get?_append, hinner, Option.bind_some, get?_cons, Option.bind_eq_some_iff] at hnew
      obtain ⟨found, hfound, -⟩ := hnew
      rw [hfound]
      rfl
    have hway : (put (file (some written)) tree (parent ++ [name])).follow (start current path)
        (namesOf path) = .ok (parent ++ [name]) := by
      have hstep : (put (file (some written)) tree (parent ++ [name])).follow parent [name]
          = .ok (parent ++ [name]) := by
        simp [follow, hinner, hempty, hdot, hdots, hname]
      rw [hnames, follow_append,
        follow_mono (fun _ _ ↦ get?_put_folder hparent hfree) hfollow]
      exact hstep
    rw [find, if_neg (by simpa using hpath), hway]
    dsimp only
    rw [hnew]

/-! ## Runs -/

/-- Writes the file of an outcome in a given way. -/
def performBy (write : String → String → Except FileFault FileTree) (tree : FileTree)
    (o : Outcome) : Outcome × FileTree :=
  match o.file with
  | none => (o, tree)
  | some (path, text) =>
    match write path text with
    | .ok after => (o, after)
    | .error fault => (o.unwritten path fault, tree)

theorem run_eq_performBy (stdin : Option String) (words : List String) :
    tree.run current stdin words = performBy (tree.write current) tree
      (CommandLine.run (tree.surroundings current stdin) words) := rfl

end FileTree

/-- The text of the descriptors is Rust or data, as the format says. -/
theorem text_eq_ok_iff {o : GenOptions} {c : Compilation} {text : String} : o.text c = .ok text ↔
    (o.format = .rust → c.rustText { suffix := o.suffix, header := o.header } = .ok text) ∧
      (o.format = .json → c.jsonText o.indented = .ok text) := by
  rw [GenOptions.text]
  cases o.format <;> simp

/-- A command that generates fails with nothing to print or to write, or has a text of a valid
compilation that goes to one place. -/
theorem run_gen_cases (s : Surroundings) (input : Input) (verbosity : Nat) (coloured : Bool)
    (o : GenOptions) :
    (∃ c text log, input.compile s = .ok c ∧ c.isValid = true ∧ o.text c = .ok text ∧
      Request.run s ⟨input, verbosity, coloured, .gen o⟩ =
        { out := if o.output = none then text ++ "\n" else ""
          err := report coloured c
          log := log
          file := o.output.map (·, text ++ "\n") }) ∨
      ∃ err log, Request.run s ⟨input, verbosity, coloured, .gen o⟩
        = { err := err, log := log, code := 1 } := by
  rw [Request.run]
  rcases Request.answer_cases s ⟨input, verbosity, coloured, .gen o⟩ with
    ⟨c, hc, hanswer⟩ | ⟨e, -, hanswer⟩
  · have hgenerate : Request.answer s ⟨input, verbosity, coloured, .gen o⟩ = generate coloured o c :=
      hanswer
    rw [hgenerate]
    rcases generate_cases coloured o c with ⟨text, -, hvalid, htext, hgen⟩ | ⟨err, -, hgen⟩
    · rw [hgen]
      exact .inl ⟨c, text, _, hc, hvalid, htext, rfl⟩
    · rw [hgen]
      exact .inr ⟨err, _, rfl⟩
  · rw [hanswer]
    exact .inr ⟨_, _, rfl⟩

/-- **Generating is all or nothing.** Whatever is around the program, and even where writing may be
refused for any reason: a command line that asks for descriptors ends in an error, and then the tree
is as before and nothing is printed to the standard output; or it ends well, and then the text of a
compilation is printed or is the content of the file that was asked for, with a line break behind
it. The tree is as before in the first case, and in the second all other files are. The types
that the text is of are those of classes without a conflict. -/
theorem gen_all_or_nothing (s : Surroundings) (tree : FileTree) (current : List String)
    (write : String → String → Except FileFault FileTree)
    (hwrite : ∀ path text after, write path text = .ok after →
      tree.write current path text = .ok after)
    (words : List String) (input : Input) (verbosity : Nat) (coloured : Bool) (o : GenOptions)
    (hread : Request.read words = .ok ⟨input, verbosity, coloured, .gen o⟩) :
    let ended := tree.performBy write (run s words)
    (ended.1.code ≠ 0 → ended.2 = tree ∧ ended.1.out = "") ∧
      (ended.1.code = 0 → ∃ c text, input.compile s = .ok c ∧
        (o.format = .rust → c.rustText { suffix := o.suffix, header := o.header } = .ok text) ∧
        (o.format = .json → c.jsonText o.indented = .ok text) ∧
        (o.output = none → ended.2 = tree ∧ ended.1.out = text ++ "\n") ∧
        (∀ path, o.output = some path → ended.1.out = "" ∧
          ended.2.find current path = .file (.ok (text ++ "\n")) ∧
          ∃ names, tree.target current path = .ok names ∧
            ∀ place content, ended.2.get? place = some (.file content) ↔
              (place = names ∧ content = some (text ++ "\n")) ∨
                (place ≠ names ∧ tree.get? place = some (.file content))) ∧
        ∀ type ∈ c.types, ∃ decl, c.declaration? type.name = some decl ∧
          type = decl.schema c.leaves ∧ type.kind = .cls ∧
          ∀ descriptor ∈ type.descriptors,
            ⟨descriptor.constant.name, .field⟩ ∉ decl.staticMembers ∧
              ∀ builder ∈ descriptor.builder, ⟨builder.name, .function⟩ ∉ decl.staticMembers) := by
  intro ended
  have hrun : run s words = Request.run s ⟨input, verbosity, coloured, .gen o⟩ := by
    rw [run, hread]
  have hended : ended = tree.performBy write
      (Request.run s ⟨input, verbosity, coloured, .gen o⟩) := by
    rw [← hrun]
  rcases run_gen_cases s input verbosity coloured o with
    ⟨c, text, log, hc, hvalid, htext, hgen⟩ | ⟨err, log, hgen⟩
  · obtain ⟨sources, -, -, rfl⟩ := compile_eq_ok.mp hc
    obtain ⟨hrust, hjson⟩ := text_eq_ok_iff.mp htext
    have htypes := compile_types_no_conflict hvalid
    rw [hgen] at hended
    cases houtput : o.output with
    | none =>
      rw [houtput, FileTree.performBy] at hended
      rw [hended]
      exact ⟨fun hcode ↦ absurd rfl hcode,
        fun _ ↦ ⟨_, text, hc, hrust, hjson, fun _ ↦ ⟨rfl, rfl⟩, nofun, htypes⟩⟩
    | some path =>
      rw [houtput, FileTree.performBy] at hended
      cases hwritten : write path (text ++ "\n") with
      | error fault =>
        dsimp only [Option.map_some] at hended
        rw [hwritten] at hended
        rw [hended]
        exact ⟨fun _ ↦ ⟨rfl, rfl⟩, nofun⟩
      | ok after =>
        dsimp only [Option.map_some] at hended
        rw [hwritten] at hended
        obtain ⟨names, htarget, hfind, hfiles⟩ := FileTree.write_eq_ok (hwrite _ _ _ hwritten)
        rw [hended]
        refine ⟨fun hcode ↦ absurd rfl hcode,
          fun _ ↦ ⟨_, text, hc, hrust, hjson, nofun, fun path' hpath ↦ ?_, htypes⟩⟩
        obtain rfl := Option.some.inj hpath
        exact ⟨rfl, hfind, names, htarget, hfiles⟩
  · rw [hgen, FileTree.performBy] at hended
    rw [hended]
    exact ⟨fun _ ↦ ⟨rfl, rfl⟩, nofun⟩

/-- The text is written beside a file that is there, at a path with a way back in it. -/
theorem gen_all_or_nothing_order :
    let tree : FileTree := .folder
      [("order.schema", .file (some "@Schema class Order \x7b customer: User \x7d")),
        ("out", .folder [("kept.txt", .file (some "kept"))])]
    let words := ["gen", "order.schema", "-o", "out/../out/paths.rs"]
    let input : Input := ⟨["order.schema"], none, [], []⟩
    let o : GenOptions := { output := some "out/../out/paths.rs" }
    let ended := tree.run [] none words
    Request.read words = .ok ⟨input, 0, false, .gen o⟩ ∧ ended.1.code = 0 ∧ ended.1.out = "" ∧
      ended.2.get? ["out", "kept.txt"] = some (.file (some "kept")) ∧
      ∃ c text, input.compile (tree.surroundings [] none) = .ok c ∧ c.rustText {} = .ok text ∧
        ended.2.find [] "out/../out/paths.rs" = .file (.ok (text ++ "\n")) ∧
        ended.2.get? ["out", "paths.rs"] = some (.file (some (text ++ "\n"))) := by
  intro tree words input o ended
  have hread : Request.read words = .ok ⟨input, 0, false, .gen o⟩ := rfl
  have hcode : ended.1.code = 0 := by decide +kernel
  have hended : ended = tree.performBy (tree.write []) (run (tree.surroundings [] none) words) :=
    FileTree.run_eq_performBy none words
  obtain ⟨-, hwritten⟩ := gen_all_or_nothing (tree.surroundings [] none) tree [] (tree.write [])
    (fun _ _ _ h ↦ h) words input 0 false o hread
  rw [← hended] at hwritten
  obtain ⟨c, text, hc, htext, -, -, hfile, -⟩ := hwritten hcode
  obtain ⟨hout, hfind, names, htarget, hfiles⟩ := hfile _ rfl
  obtain rfl : ["out", "paths.rs"] = names := Except.ok.inj htarget
  exact ⟨hread, hcode, hout, (hfiles _ _).mpr (.inr ⟨by decide, rfl⟩), c, text, hc, htext rfl, hfind,
    (hfiles _ _).mpr (.inl ⟨rfl, rfl⟩)⟩

end FieldPaths.CommandLine
