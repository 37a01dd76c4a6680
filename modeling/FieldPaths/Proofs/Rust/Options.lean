import FieldPaths.Proofs.Rust.Reader
import FieldPaths.Rust.Options

/-!
# Options as they are written

The options of an attribute one by one, before anything is made of them: a leaf option has its whole
path, and the companion is named as often as it is named. What is used of them is said of that list
alone, so that a statement about options need not follow a reader through its steps.

Options are added while they are read. The list is read by the same steps with nothing added on the
way, and a fault is the same fault.
-/

namespace FieldPaths.Rust

/-- An option as it is written. -/
inductive SchemaOption where
  | companion (name : String)
  | leaf (isFromRoot : Bool) (path : List Segment)

namespace SchemaOption

/-- The name that an option gives to the companion. -/
def companion? : SchemaOption → Option String
  | companion name => some name
  | leaf .. => none

/-- The last name of the path that an option makes a leaf, as it is written. -/
def leafName? : SchemaOption → Option String
  | companion _ => none
  | leaf _ path => path.getLast?.map (·.name)

end SchemaOption

/-! ## What is used of options -/

namespace Options

/-- Some options and one more. -/
def add (options : Options) : SchemaOption → Options
  | .companion name => { options with companion := some name }
  | .leaf _ path => { options with leaves := options.leaves ++ (path.getLast?.map (·.name)).toList }

/-- The last companion name and all leaf names. -/
def collected (given : List SchemaOption) : Options where
  companion := (given.filterMap (·.companion?)).getLast?
  leaves := given.filterMap (·.leafName?)

theorem foldl_add (given : List SchemaOption) (found : Options) :
    given.foldl add found = ⟨(collected given).companion.or found.companion,
      found.leaves ++ (collected given).leaves⟩ := by
  induction given generalizing found with
  | nil => simp [collected]
  | cons first more ih =>
    rw [List.foldl_cons, ih]
    cases first with
    | companion name =>
      simp [collected, add, SchemaOption.companion?, SchemaOption.leafName?, List.getLast?_cons]
    | leaf isFromRoot path =>
      cases h : path.getLast? <;>
        simp [collected, add, SchemaOption.companion?, SchemaOption.leafName?, h]

theorem foldl_add_empty (given : List SchemaOption) : given.foldl add {} = collected given := by
  rw [foldl_add, Option.or_none, List.nil_append]

end Options

/-! ## Reading the list -/

namespace Reader

variable {α β : Type}

/-- Reads an option by itself. -/
def schemaOption : Reader SchemaOption := do
  let (isFromRoot, path) ← optionPath
  if !isFromRoot && path == ["paths"] then
    let _ ← mark "="
    return .companion (← name)
  else if !isFromRoot && path == ["leaf"] then
    let _ ← mark "="
    let root ← mark? "::"
    return .leaf (!root.isEmpty) (← segments (← steps))
  else throw .unknownOption

/-- Reads the list of options with commas between them. -/
def schemaOptions : Reader (List SchemaOption) := do
  if ← isAtEnd then return [] else loop ((← left).length + 1)
where
  /-- At most the given number of options. -/
  loop : Nat → Reader (List SchemaOption)
    | 0 => return []
    | times + 1 => do
      let first ← schemaOption
      if ← isAtEnd then return [first]
      else
        let _ ← mark ","
        if ← isAtEnd then return [first] else return first :: (← loop times)

theorem option_eq (options : Options) : option options = options.add <$> schemaOption := by
  rw [option, schemaOption, map_bind]
  refine bind_congr fun (isFromRoot, path) ↦ ?_
  dsimp only
  split
  · simp only [map_bind, map_pure, Options.add]
  · split
    · simp only [map_bind, map_pure, Options.add]
    · rfl

theorem options_loop_eq (times : Nat) (found : Options) :
    options.loop found times = List.foldl Options.add found <$> schemaOptions.loop times := by
  induction times generalizing found with
  | zero => rfl
  | succ times ih =>
    rw [options.loop, schemaOptions.loop, option_eq, bind_map_left, map_bind]
    refine bind_congr fun first ↦ ?_
    rw [map_bind]
    refine bind_congr fun isLast ↦ ?_
    split
    · rfl
    · rw [map_bind]
      refine bind_congr fun _ ↦ ?_
      rw [map_bind]
      refine bind_congr fun hasTrailingComma ↦ ?_
      split
      · rfl
      · rw [ih, map_bind, map_eq_pure_bind]
        simp only [map_pure, List.foldl_cons]

theorem options_eq : options = Options.collected <$> schemaOptions := by
  rw [options, schemaOptions, map_bind]
  refine bind_congr fun isAtEnd ↦ ?_
  split
  · rfl
  · rw [map_bind]
    refine bind_congr fun trees ↦ ?_
    rw [options_loop_eq]
    exact congrArg (· <$> _) (funext Options.foldl_add_empty)

theorem readAll_map (f : α → β) (reader : Reader α) (trees : List Tree) :
    readAll (f <$> reader) trees = (readAll reader trees).map f := by
  have hrun : (f <$> reader).run ⟨trees, false⟩
      = (reader.run ⟨trees, false⟩).map fun read ↦ (f read.1, read.2) := by
    rw [StateT.run_map]
    rfl
  rw [readAll, readAll, hrun]
  cases reader.run ⟨trees, false⟩ with
  | error fault => rfl
  | ok read =>
    dsimp only [Except.map]
    split <;> rfl

/-- What an option gives to the companion is a name. -/
def HasCompanionName (option : SchemaOption) : Prop :=
  ∀ name ∈ option.companion?, isName name = true

theorem schemaOption_gives : Gives HasCompanionName schemaOption := by
  refine .last fun (isFromRoot, path) ↦ .ite (.last fun _ ↦ ?companion) (.ite ?leaf (.throw _))
  case companion =>
    refine .bind name_gives fun name hname ↦ .pure fun other hother ↦ ?_
    rwa [← Option.mem_some_iff.mp hother]
  case leaf => exact .last fun _ ↦ .last fun _ ↦ .last fun _ ↦ .last fun _ ↦ .pure nofun

theorem schemaOptions_gives : Gives (∀ option ∈ ·, HasCompanionName option) schemaOptions := by
  have hloop (times : Nat) :
      Gives (∀ option ∈ ·, HasCompanionName option) (schemaOptions.loop times) := by
    induction times with
    | zero => exact .pure (List.forall_mem_nil _)
    | succ times ih =>
      refine .bind schemaOption_gives fun first hfirst ↦ .last fun _ ↦ ?_
      have hone : Gives (∀ option ∈ ·, HasCompanionName option) (pure [first]) :=
        .pure (List.forall_mem_singleton.mpr hfirst)
      refine .ite hone (.last fun _ ↦ .last fun _ ↦ .ite hone ?_)
      exact .bind ih fun more hmore ↦ .pure (List.forall_mem_cons.mpr ⟨hfirst, hmore⟩)
  exact .last fun _ ↦ .ite (.pure (List.forall_mem_nil _)) (.last fun _ ↦ hloop _)

end Reader

/-- The options that some trees write, one by one. -/
def SchemaOption.listOf (trees : List Tree) : Except Fault (List SchemaOption) :=
  Reader.readAll Reader.schemaOptions trees

namespace Options

variable {options : Options} {trees : List Tree}

/-- The options of an attribute are the ones that are collected from its list. -/
theorem ofTrees_eq (trees : List Tree) :
    ofTrees trees = (SchemaOption.listOf trees).map collected := by
  rw [ofTrees, Reader.options_eq, Reader.readAll_map]
  rfl

/-- What the options of an attribute call the companion is a name. -/
theorem isName_of_ofTrees (h : ofTrees trees = .ok options) :
    ∀ name ∈ options.companion, isName name = true := by
  intro name hname
  rw [ofTrees_eq] at h
  cases hgiven : SchemaOption.listOf trees with
  | error cause =>
    rw [hgiven] at h
    cases h
  | ok given =>
    rw [hgiven] at h
    cases h
    obtain ⟨option, hoption, hcompanion⟩ := List.mem_filterMap.mp (List.mem_of_getLast? hname)
    exact Reader.of_readAll Reader.schemaOptions_gives hgiven option hoption name hcompanion

end Options

end FieldPaths.Rust
