import FieldPaths.Proofs.CommandLine.Run
import FieldPaths.Proofs.Compilation.Kept
import Mathlib.Data.List.Sort

/-!
# Loading does not depend on the order of a folder

The first declaration of a name is the one that is kept, so the order of the sources decides what is
generated. A folder lists its members in no order that means anything. What is loaded is told here
argument by argument, by relations in which that order does not occur: a folder gives its schema
files in the order of their names, and the standard input is all there at its first argument and
empty at the later ones.

Arguments fail in turn, and so do the files of a folder: the first failure is the one that is
reported, whatever comes after it (`InTurn`).
-/

namespace FieldPaths.CommandLine

variable {s s' : Surroundings} {path name : String}

/-! ## One after the other -/

section InTurn

variable {ε α β : Type} {results : List (Except ε α)} {r : Except ε (List α)}

/-- What results come to when they are taken one after the other: all their values, or the first
failure. -/
inductive InTurn : List (Except ε α) → Except ε (List α) → Prop where
  | all (values : List α) : InTurn (values.map .ok) (.ok values)
  | fails (values : List α) (e : ε) (more : List (Except ε α)) :
      InTurn (values.map .ok ++ .error e :: more) (.error e)

theorem InTurn.ok_cons (a : α) (h : InTurn results r) :
    InTurn (.ok a :: results) (r.map (a :: ·)) := by
  cases h with
  | all values => exact .all (a :: values)
  | fails values e more => exact .fails (a :: values) e more

theorem inTurn_mapM (f : β → Except ε α) (l : List β) : InTurn (l.map f) (l.mapM f) := by
  induction l with
  | nil => exact .all []
  | cons b l ih =>
    rw [List.map_cons, List.mapM_cons]
    cases f b with
    | error e => exact .fails [] e _
    | ok a =>
      have := ih.ok_cons a
      revert this
      cases l.mapM f <;> exact id

end InTurn

theorem withEarlier_cons {α : Type} (a : α) (l : List α) :
    withEarlier (a :: l) = ([], a) :: (withEarlier l).map (Prod.map (a :: ·) id) := by
  rw [withEarlier, withEarlier, List.zipIdx_cons, List.zipIdx_succ, List.map_cons, List.map_map,
    List.map_map]
  rfl

/-! ## What is named gives -/

namespace Surroundings

/-- What the file at a path gives. -/
inductive FileGives (s : Surroundings) (path : String) : Except LoadError Source → Prop where
  | text {text : String} (h : s.find path = .file (.ok text)) :
      FileGives s path (.ok ⟨.file path, text⟩)
  | unreadable {fault : FileFault} (h : s.find path = .file (.error fault)) :
      FileGives s path (.error (.unreadable path fault))
  | nothing {fault : FileFault} (h : s.find path = .nothing fault) :
      FileGives s path (.error (.unreadable path fault))

/-- The names of the schema files in a folder, when these are its members. -/
structure IsListing (s : Surroundings) (folder : String) (members names : List String) : Prop where
  /-- They are in order, and the order of the members is not used. -/
  sorted : names.Pairwise (· ≤ ·)
  /-- Each is there once. -/
  nodup : members.Nodup → names.Nodup
  /-- They are the members with the extension, after a name, that are files. -/
  mem_iff : ∀ name, name ∈ names ↔ name ∈ members ∧
    (∃ stem : String, stem ≠ "" ∧ name = stem ++ ".schema") ∧
    ∃ text, s.find (memberPath folder name) = .file text

/-- What a path gives: its file, or the schema files of its folder. -/
inductive PathGives (s : Surroundings) (path : String) : Except LoadError (List Source) → Prop where
  | file {source : Source} (h : s.FileGives path (.ok source)) : PathGives s path (.ok [source])
  | noFile {e : LoadError} (h : s.FileGives path (.error e)) : PathGives s path (.error e)
  | unlisted {fault : FileFault} (h : s.find path = .folder (.error fault)) :
      PathGives s path (.error (.unreadable path fault))
  | noSchema {members : List String} (h : s.find path = .folder (.ok members))
      (hnames : s.IsListing path members []) : PathGives s path (.error (.noSchemaIn path))
  | folder {members names : List String} {results : List (Except LoadError Source)}
      {r : Except LoadError (List Source)} (h : s.find path = .folder (.ok members))
      (hnames : s.IsListing path members names) (hsome : names ≠ [])
      (hfiles : List.Forall₂ (fun name ↦ s.FileGives (memberPath path name)) names results)
      (hr : InTurn results r) : PathGives s path r

/-- What an argument gives, where `isRead` says that the standard input was named before it. -/
inductive ArgumentGives (s : Surroundings) (isRead : Prop) :
    String → Except LoadError (List Source) → Prop where
  | stdin {text : String} (hfirst : ¬ isRead) (h : s.stdin = .ok text) :
      ArgumentGives s isRead stdinPath (.ok [⟨.stdin, text⟩])
  | stdinFault {fault : FileFault} (hfirst : ¬ isRead) (h : s.stdin = .error fault) :
      ArgumentGives s isRead stdinPath (.error (.stdin fault))
  | stdinAgain (hagain : isRead) : ArgumentGives s isRead stdinPath (.ok [⟨.stdin, ""⟩])
  | path {path : String} {r : Except LoadError (List Source)} (hpath : path ≠ stdinPath)
      (h : s.PathGives path r) : ArgumentGives s isRead path r

theorem fileGives (h : ∀ members, s.find path ≠ .folder members) :
    s.FileGives path (s.fileSource path) := by
  rw [fileSource, text]
  cases hfind : s.find path with
  | file text =>
    cases text with
    | ok text => exact .text hfind
    | error fault => exact .unreadable hfind
  | folder members => exact absurd hfind (h members)
  | nothing fault => exact .nothing hfind

theorem isSchemaName_iff :
    isSchemaName name = true ↔ ∃ stem : String, stem ≠ "" ∧ name = stem ++ ".schema" := by
  rw [isSchemaName, Bool.and_eq_true, List.isSuffixOf_iff_suffix, decide_eq_true_iff]
  constructor
  · rintro ⟨⟨stem, hstem⟩, hlength⟩
    have hname : name = String.ofList stem ++ ".schema" := by
      rw [← String.toList_inj, String.toList_append, String.toList_ofList, hstem]
    refine ⟨String.ofList stem, ?_, hname⟩
    intro hempty
    rw [hname, hempty, String.empty_append] at hlength
    exact absurd hlength (lt_irrefl _)
  · rintro ⟨stem, hstem, rfl⟩
    rw [String.toList_append, String.length_append]
    refine ⟨List.suffix_append _ _, ?_⟩
    have : stem.length ≠ 0 := fun h ↦ hstem (String.length_eq_zero_iff.mp h)
    omega

theorem isFile_iff : s.isFile path = true ↔ ∃ text, s.find path = .file text := by
  rw [isFile]
  cases s.find path <;> simp

/-- The names that are gone through are the schema files of the folder. -/
theorem isListing_schemaNames (s : Surroundings) (folder : String) (members : List String) :
    s.IsListing folder members (s.schemaNames folder members) where
  sorted := by
    rw [schemaNames]
    exact List.pairwise_mergeSort' (· ≤ ·) _
  nodup hmembers := by
    rw [schemaNames, List.nodup_mergeSort]
    exact hmembers.filter _
  mem_iff name := by
    rw [schemaNames, List.mem_mergeSort, List.mem_filter, Bool.and_eq_true, isSchemaName_iff,
      isFile_iff]

theorem sourcesAt_of_folder {members : List String} (h : s.find path = .folder (.ok members))
    (hsome : s.schemaNames path members ≠ []) :
    s.sourcesAt path =
      (s.schemaNames path members).mapM fun name ↦ s.fileSource (memberPath path name) := by
  simp only [sourcesAt, h]

theorem pathGives (s : Surroundings) (path : String) : s.PathGives path (s.sourcesAt path) := by
  have hfile (h : ∀ members, s.find path ≠ .folder members) :
      s.PathGives path ((s.fileSource path).map ([·])) := by
    have hgives := fileGives h
    revert hgives
    cases s.fileSource path with
    | ok source => exact .file
    | error e => exact .noFile
  cases hfind : s.find path with
  | file text =>
    rw [sourcesAt, hfind]
    exact hfile (by simp [hfind])
  | nothing fault =>
    rw [sourcesAt, hfind]
    exact hfile (by simp [hfind])
  | folder members =>
    cases members with
    | error fault =>
      rw [sourcesAt, hfind]
      exact .unlisted hfind
    | ok members =>
      have hnames := s.isListing_schemaNames path members
      by_cases hsome : s.schemaNames path members = []
      · simp only [sourcesAt, hfind, hsome]
        exact .noSchema hfind (hsome ▸ hnames)
      · rw [sourcesAt_of_folder hfind hsome]
        refine .folder hfind hnames hsome ?_ (inTurn_mapM _ _)
        rw [List.forall₂_map_right_iff, List.forall₂_same]
        intro name hname
        obtain ⟨-, -, text, htext⟩ := (hnames.mem_iff name).mp hname
        exact fileGives (by simp [htext])

/-! ## Arguments in turn -/

/-- What the standard input still holds, once it was read or before that. -/
def stdinLeft (s : Surroundings) (isRead : Prop) [Decidable isRead] : Except FileFault String :=
  if isRead then .ok "" else s.stdin

/-- The first argument gives its sources, and the others find the standard input as it leaves it. -/
theorem sources_cons (s : Surroundings) (isRead : Prop) [Decidable isRead] (path : String)
    (more : List String) :
    ∃ here, s.ArgumentGives isRead path here ∧
      s.sources (s.stdinLeft isRead) (path :: more) = do
        let sources ← here
        return sources ++ (← s.sources (s.stdinLeft (isRead ∨ path = stdinPath)) more) := by
  rw [sources]
  by_cases hpath : path = stdinPath
  · subst hpath
    have hleft : s.stdinLeft (isRead ∨ stdinPath = stdinPath) = .ok "" := if_pos (.inr rfl)
    rw [if_pos (beq_self_eq_true _), hleft]
    by_cases hread : isRead
    · refine ⟨_, .stdinAgain hread, ?_⟩
      rw [stdinLeft, if_pos hread]
      rfl
    · rw [stdinLeft, if_neg hread]
      cases hstdin : s.stdin with
      | ok text => exact ⟨_, .stdin hread hstdin, rfl⟩
      | error fault => exact ⟨_, .stdinFault hread hstdin, rfl⟩
  · refine ⟨s.sourcesAt path, .path hpath (s.pathGives path), ?_⟩
    rw [if_neg (by simpa using hpath)]
    simp only [stdinLeft, hpath, or_false]

theorem sources_inTurn (s : Surroundings) (isRead : Prop) [Decidable isRead] (paths : List String) :
    ∃ r results,
      List.Forall₂ (fun (earlier, path) ↦ s.ArgumentGives (isRead ∨ stdinPath ∈ earlier) path)
        (withEarlier paths) results ∧
      InTurn results r ∧ s.sources (s.stdinLeft isRead) paths = r.map List.flatten := by
  induction paths generalizing isRead with
  | nil => exact ⟨.ok [], [], .nil, .all [], rfl⟩
  | cons path more ih =>
    obtain ⟨here, hhere, hsources⟩ := s.sources_cons isRead path more
    obtain ⟨r, results, hresults, hr, hmore⟩ := ih (isRead ∨ path = stdinPath)
    have hall : List.Forall₂
        (fun (earlier, path) ↦ s.ArgumentGives (isRead ∨ stdinPath ∈ earlier) path)
        (withEarlier (path :: more)) (here :: results) := by
      rw [withEarlier_cons]
      refine .cons (by simpa using hhere) (List.forall₂_map_left_iff.mpr (hresults.imp ?_))
      rintro ⟨earlier, later⟩ result h
      simpa only [Prod.map, id, List.mem_cons, or_assoc, eq_comm (a := stdinPath)] using h
    rw [hmore] at hsources
    cases here with
    | error e => exact ⟨.error e, _, hall, .fails [] e results, hsources⟩
    | ok sources =>
      refine ⟨r.map (sources :: ·), _, hall, hr.ok_cons sources, ?_⟩
      rw [hsources]
      cases r <;> rfl

/-! ## The order of a folder -/

end Surroundings

/-- Two findings that differ at most in the order in which a folder lists its members. -/
inductive Found.Alike : Found → Found → Prop where
  | same (found : Found) : Alike found found
  | folder {members members' : List String} (h : members.Perm members') :
      Alike (.folder (.ok members)) (.folder (.ok members'))

/-- Surroundings that differ at most in the orders in which folders list their members. -/
structure Surroundings.Alike (s s' : Surroundings) : Prop where
  stdin_eq : s'.stdin = s.stdin
  find_alike : ∀ path, (s.find path).Alike (s'.find path)

namespace Surroundings

namespace Alike

theorem find_cases (h : s.Alike s') (path : String) :
    s'.find path = s.find path ∨ ∃ members members', s.find path = .folder (.ok members) ∧
      s'.find path = .folder (.ok members') ∧ members.Perm members' := by
  have halike := h.find_alike path
  generalize s.find path = found at halike ⊢
  generalize s'.find path = found' at halike ⊢
  cases halike with
  | same found => exact .inl rfl
  | folder hmembers => exact .inr ⟨_, _, rfl, rfl, hmembers⟩

theorem isFile_eq (h : s.Alike s') (path : String) : s'.isFile path = s.isFile path := by
  rw [isFile, isFile]
  rcases h.find_cases path with hfind | ⟨_, _, hfind, hfind', -⟩
  · rw [hfind]
  · rw [hfind, hfind']

theorem fileSource_eq (h : s.Alike s') (path : String) :
    s'.fileSource path = s.fileSource path := by
  rw [fileSource, fileSource, text, text]
  rcases h.find_cases path with hfind | ⟨_, _, hfind, hfind', -⟩
  · rw [hfind]
  · rw [hfind, hfind']

theorem schemaNames_eq (h : s.Alike s') (folder : String) {members members' : List String}
    (hmembers : members.Perm members') :
    s'.schemaNames folder members' = s.schemaNames folder members := by
  have hnames : (s'.schemaNames folder members').Perm (s.schemaNames folder members) := by
    simp only [schemaNames, h.isFile_eq]
    exact ((List.mergeSort_perm _ _).trans (hmembers.symm.filter _)).trans
      (List.mergeSort_perm _ _).symm
  exact hnames.eq_of_pairwise' (s'.isListing_schemaNames folder members').sorted
    (s.isListing_schemaNames folder members).sorted

theorem sourcesAt_eq (h : s.Alike s') (path : String) :
    s'.sourcesAt path = s.sourcesAt path := by
  rw [sourcesAt, sourcesAt]
  rcases h.find_cases path with hfind | ⟨_, _, hfind, hfind', hmembers⟩
  · simp only [hfind, h.fileSource_eq, h.schemaNames_eq _ (List.Perm.refl _)]
  · simp only [hfind, hfind', h.fileSource_eq, h.schemaNames_eq _ hmembers]

theorem sources_eq (h : s.Alike s') (stdin : Except FileFault String) (paths : List String) :
    s'.sources stdin paths = s.sources stdin paths := by
  induction paths generalizing stdin with
  | nil => rfl
  | cons path more ih => simp only [sources, h.sourcesAt_eq, ih]

end Alike

/-- **Loading does not depend on the order of a folder.** In surroundings that list the members of
their folders in other orders the same is loaded, or fails for the same reason. It is the text of
the command line and then what the arguments give, one after the other, and each of them gives what
is told of it without any order of its members. -/
theorem load_alike (h : s.Alike s') (paths : List String) (text : Option String) :
    s'.load paths text = s.load paths text ∧
      ∃ r results,
        List.Forall₂ (fun (earlier, path) ↦ s.ArgumentGives (stdinPath ∈ earlier) path)
          (withEarlier paths) results ∧
        InTurn results r ∧
        s.load paths text =
          if paths = [] ∧ text = none then .error .noSource
          else r.map fun sources ↦ (text.map (⟨.inline, ·⟩)).toList ++ sources.flatten := by
  refine ⟨by rw [load, load, h.stdin_eq, h.sources_eq], ?_⟩
  obtain ⟨r, results, hresults, hr, hsources⟩ := s.sources_inTurn False paths
  refine ⟨r, results, by simpa only [false_or] using hresults, hr, ?_⟩
  rw [stdinLeft, if_neg not_false] at hsources
  rw [load, hsources]
  refine if_congr (by simp) rfl ?_
  cases r <;> rfl

/-- A folder that lists its members so. One of them is a folder if it is there, and the others are
files that hold their own paths. -/
def schemasListed (members : List String) : Surroundings where
  find path :=
    if path = "schemas" then .folder (.ok members)
    else if path = "schemas/more.schema" then .folder (.ok [])
    else .file (.ok path)
  stdin := .ok "@Schema class C { d: D; }"

theorem sourcesAt_schemasListed :
    (schemasListed [".schema", "a.schema", "b.schema", "more.schema", "notes"]).sourcesAt
        "schemas" =
      .ok [⟨.file "schemas/a.schema", "schemas/a.schema"⟩,
        ⟨.file "schemas/b.schema", "schemas/b.schema"⟩] := by
  have hmembers : (schemasListed [".schema", "a.schema", "b.schema", "more.schema", "notes"]).find
      "schemas" = .folder (.ok [".schema", "a.schema", "b.schema", "more.schema", "notes"]) := rfl
  have hnames : (schemasListed
      [".schema", "a.schema", "b.schema", "more.schema", "notes"]).schemaNames
      "schemas" [".schema", "a.schema", "b.schema", "more.schema", "notes"] =
        ["a.schema", "b.schema"] :=
    List.mergeSort_of_pairwise (by decide +kernel)
  rw [sourcesAt_of_folder hmembers (by simp [hnames]), hnames]
  rfl

theorem load_alike_schemasListed :
    (schemasListed ["b.schema", "more.schema", "a.schema", ".schema", "notes"]).load
        ["-", "schemas", "-"] (some "") =
      .ok [⟨.inline, ""⟩, ⟨.stdin, "@Schema class C { d: D; }"⟩,
        ⟨.file "schemas/a.schema", "schemas/a.schema"⟩,
        ⟨.file "schemas/b.schema", "schemas/b.schema"⟩, ⟨.stdin, ""⟩] := by
  have halike : (schemasListed [".schema", "a.schema", "b.schema", "more.schema", "notes"]).Alike
      (schemasListed ["b.schema", "more.schema", "a.schema", ".schema", "notes"]) := by
    refine ⟨rfl, fun path ↦ ?_⟩
    rw [schemasListed, schemasListed]
    dsimp only
    split
    · exact .folder (by decide)
    · exact .same _
  rw [(load_alike halike _ _).1, load, sources, sources, sources, sources, sourcesAt_schemasListed]
  rfl

end Surroundings

end FieldPaths.CommandLine
