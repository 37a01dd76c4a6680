import FieldPaths.Proofs.Generated.Meaning
import FieldPaths.Proofs.Rust.Reader
import FieldPaths.Rust.Expansion

/-!
# What an expansion is read as

The trees behind a struct, read as definitions beside that struct. An `impl` is one of the struct if
it has the struct's parameters and conditions, which are compared tree by tree, because a condition
may have braces in it and does not show where it ends. Everything else is read as in generated text,
where a string may also be called by its full path.

Three items at most are written, and their first tree tells them apart but for the two `impl`s.
These are told apart by what is behind it. A companion that has the very name of a struct without
parameters and conditions has the same `impl` as the struct, and then it does not matter which of
the two it is taken for.

A companion can be called all that is a name where options are read, so it is by that rule that the
name of a type is a name here.
-/

namespace FieldPaths

namespace Rust

/-! ## Comparing trees -/

namespace Tree

mutual

/-- Decides whether two trees are the same. -/
def decEq : (s t : Tree) → Decidable (s = t)
  | ident m, ident n => if h : m = n then isTrue (by rw [h]) else isFalse fun e ↦ h (by injection e)
  | punct c i, punct d j =>
    if h : c = d ∧ i = j then isTrue (by rw [h.1, h.2])
    else isFalse fun e ↦ h (by injection e with hchar hjoint; exact ⟨hchar, hjoint⟩)
  | literal m, literal n =>
    if h : m = n then isTrue (by rw [h]) else isFalse fun e ↦ h (by injection e)
  | group c ss, group d ts =>
    match decEqList ss ts with
    | isTrue h =>
      if h' : c = d then isTrue (by rw [h, h']) else isFalse fun e ↦ h' (by injection e)
    | isFalse h => isFalse fun e ↦ h (by injection e)
  | ident _, punct .. | ident _, literal _ | ident _, group .. | punct .., ident _
  | punct .., literal _ | punct .., group .. | literal _, ident _ | literal _, punct ..
  | literal _, group .. | group .., ident _ | group .., punct .. | group .., literal _ =>
    isFalse nofun

/-- Decides whether two lists of trees are the same. -/
def decEqList : (ss ts : List Tree) → Decidable (ss = ts)
  | [], [] => isTrue rfl
  | [], _ :: _ => isFalse nofun
  | _ :: _, [] => isFalse nofun
  | s :: ss, t :: ts =>
    match decEq s t, decEqList ss ts with
    | isTrue h, isTrue h' => isTrue (by rw [h, h'])
    | isFalse h, _ => isFalse fun e ↦ h (by injection e)
    | _, isFalse h => isFalse fun e ↦ h (by injection e)

end

instance : DecidableEq Tree := decEq

end Tree

/-! ## Reading beside a struct -/

/-- A member in which the type of strings goes by its name alone. -/
def withStringName : List Tree → List Tree
  | .punct ':' true :: .punct ':' _ :: .ident "std" :: .punct ':' true :: .punct ':' _ ::
      .ident "string" :: .punct ':' true :: .punct ':' _ :: .ident "String" :: more =>
    .ident "String" :: withStringName more
  | t :: more => t :: withStringName more
  | [] => []

/-- The members of `owner` in the braces at the front, and what is behind them. -/
def members? (owner : String) : List Tree → Option (List Definition × List Tree)
  | .group .brace content :: more =>
    ((itemsOf content).mapM fun item ↦ member? owner (withStringName (withoutAttributes item))).map
      (·, more)
  | _ => none

/-- The name of a type that a word stands for, if it is a name at all. -/
def typeName? (word : String) : Option String := if isName word then some (unraw word) else none

namespace StructItem

/-- What is before the members of a struct: its name and parameters and the conditions on them. -/
def implFront (item : StructItem) : List Tree :=
  .ident "impl" :: item.generics.angled Param.declared ++ .ident item.name ::
    item.generics.angled Param.use ++ item.generics.whereTokens

/-- What the item at the front defines, and what is behind it: members of the struct or of another
type, or a unit struct that is as visible as the struct. -/
def next? (item : StructItem) (trees : List Tree) : Option (List Definition × List Tree) :=
  if item.implFront <+: trees then
    members? (unraw item.name) (trees.drop item.implFront.length)
  else if item.visibility ++ [.ident "struct"] <+: trees then
    match trees.drop (item.visibility.length + 1) with
    | .ident word :: .punct ';' _ :: more => (typeName? word).map fun name ↦ ([.struct name], more)
    | _ => none
  else
    match trees with
    | .ident "impl" :: .ident word :: more => (typeName? word).bind fun owner ↦ members? owner more
    | _ => none

/-- What the trees behind a struct define, in their order. -/
def definitions? (item : StructItem) (trees : List Tree) : Option (List Definition) :=
  match withoutAttributes trees with
  | [] => some []
  | first :: others =>
    match item.next? (first :: others) with
    | none => none
    | some (defs, more) =>
      -- no item is empty, so this is only said for the reading to end
      if more.length < trees.length then (item.definitions? more).map (defs ++ ·) else none
termination_by trees.length

end StructItem

/-! ## The members that are written -/

/-- The function for a builder, which has the text before the path in it. -/
def expandedFn (builder : PathBuilder) : Fn where
  name := builder.name
  param := builder.param
  body := [.literal builder.lead, .param builder.param]

/-- What is defined for some descriptors of the type `owner`, with the function `fn builder` for
each builder. -/
def definitionsWith (fn : PathBuilder → Fn) (owner companion : String)
    (descriptors : List Descriptor) : List Definition :=
  ((constantsOf descriptors).map fun constant ↦ .constant owner constant.name constant.value) ++
    if (buildersOf descriptors).isEmpty then []
    else .struct companion ::
      (buildersOf descriptors).map fun builder ↦ .function companion (fn builder)

theorem isItem_constant (constant : FieldConstant) : IsItem (Expansion.constant constant) :=
  fun _ ↦ rfl

theorem isItem_function (builder : PathBuilder) : IsItem (Expansion.function builder) :=
  fun _ ↦ rfl

theorem member?_constant {constant : FieldConstant} (owner : String)
    (h : name? constant.name = some constant.name) :
    member? owner (withStringName (withoutAttributes (Expansion.constant constant)))
      = some (.constant owner constant.name constant.value) := by
  have hmember : member? owner (withStringName (withoutAttributes (Expansion.constant constant))) =
      (name? constant.name).bind fun name ↦ (unquoted? (quoted constant.value)).bind fun value ↦
        some (.constant owner name value) := rfl
  rw [hmember, h, unquoted?_quoted, Option.bind_some, Option.bind_some]

theorem member?_function {builder : PathBuilder} (owner : String)
    (hname : name? builder.name = some builder.name)
    (hparam : name? builder.param = some builder.param) :
    member? owner (withStringName (withoutAttributes (Expansion.function builder)))
      = some (.function owner (expandedFn builder)) := by
  have hbody : body? [.group .bracket [.literal (quoted builder.lead), .punct ',' false,
      .ident builder.param], .punct '.' false, .ident "concat", .parens []]
        = some (expandedFn builder).body := by
    simp [Tree.parens, body?, splitCommas, operand?, hparam, unquoted?_quoted, expandedFn]
  have hmember : member? owner (withStringName (withoutAttributes (Expansion.function builder))) =
      (name? builder.name).bind fun name ↦ (name? builder.param).bind fun param ↦
        (body? [.group .bracket [.literal (quoted builder.lead), .punct ',' false,
            .ident builder.param], .punct '.' false, .ident "concat", .parens []]).bind fun body ↦
          some (.function owner ⟨name, param, body⟩) := rfl
  rw [hmember, hname, hparam, hbody]
  rfl

/-- Members one after the other are read one after the other. -/
theorem members?_braces {α : Type} {owner : String} {trees : α → List Tree}
    {define : α → Definition} {l : List α} (more : List Tree) (hitem : ∀ a ∈ l, IsItem (trees a))
    (hmember : ∀ a ∈ l,
      member? owner (withStringName (withoutAttributes (trees a))) = some (define a)) :
    members? owner (.braces (l.flatMap trees) :: more) = some (l.map define, more) := by
  have hitems : itemsOf (l.flatMap trees) = l.map trees := by
    rw [List.flatMap_def]
    exact itemsOf_flatten (List.forall_mem_map.mpr hitem)
  have hmembers : (itemsOf (l.flatMap trees)).mapM
      (fun item ↦ member? owner (withStringName (withoutAttributes item)))
        = some (l.map define) := by
    rw [hitems, List.mapM_map]
    exact mapM_eq_some hmember
  rw [Tree.braces, members?, hmembers, Option.map_some]

/-! ## The items that are written -/

theorem withoutAttributes_attr (content more : List Tree) :
    withoutAttributes (Tree.attr content ++ more) = withoutAttributes more := rfl

/-- A visibility is no attribute, whether or not it is written. -/
theorem withoutAttributes_visibility {visibility : List Tree} (word : String) (more : List Tree)
    (h : Reader.IsVisibility visibility) :
    withoutAttributes (visibility ++ .ident word :: more) = visibility ++ .ident word :: more := by
  cases visibility with
  | nil => rfl
  | cons t rest =>
    obtain rfl := h t rfl
    rfl

theorem typeName?_of_isName {word : String} (h : isName word = true) :
    typeName? word = some (unraw word) := if_pos h

namespace StructItem

variable {item : StructItem} {trees more : List Tree} {defs : List Definition}

theorem next?_impl (more : List Tree) :
    item.next? (item.implFront ++ more) = members? (unraw item.name) more := by
  unfold next?
  rw [if_pos (List.prefix_append ..), List.drop_left]

/-- What starts with another word than the `impl` of the struct is none. -/
theorem not_implFront_prefix {t : Tree} (h : t ≠ .ident "impl") :
    ¬ item.implFront <+: t :: more := by
  rintro ⟨rest, hrest⟩
  exact h (List.cons_eq_cons.mp hrest).1.symm

/-- Where an `impl` without parameters is that of the struct, the struct has the name in it and
neither parameters nor conditions. -/
theorem implFront_of_prefix {word : String} {content : List Tree}
    (h : item.implFront <+: [.ident "impl", .ident word, .braces content]) :
    item.name = word ∧ item.implFront = [.ident "impl", .ident word] := by
  obtain ⟨rest, hrest⟩ := h
  by_cases hparams : item.generics.params.isEmpty = true
  · have hfront : item.implFront
        = .ident "impl" :: .ident item.name :: item.generics.whereTokens := by
      rw [implFront, Generics.angled, Generics.angled, if_pos hparams, if_pos hparams]
      rfl
    rw [hfront, List.cons_append, List.cons_append, List.cons_eq_cons, List.cons_eq_cons] at hrest
    obtain ⟨-, hname, hbrace⟩ := hrest
    rw [hfront, Tree.ident.inj hname]
    rw [Generics.whereTokens] at hbrace ⊢
    split at hbrace
    · exact ⟨rfl, by rw [if_pos ‹_›]⟩
    · cases (List.cons_eq_cons.mp hbrace).1
  · rw [implFront, Generics.angled, if_neg hparams] at hrest
    simp [Tree.op] at hrest

theorem next?_struct (hvisibility : Reader.IsVisibility item.visibility) {word : String}
    (hword : isName word = true) (more : List Tree) :
    item.next? (item.visibility ++ .ident "struct" :: .ident word :: .punct ';' false :: more)
      = some ([.struct (unraw word)], more) := by
  have hother : ¬ item.implFront
      <+: item.visibility ++ .ident "struct" :: .ident word :: .punct ';' false :: more := by
    cases hvis : item.visibility with
    | nil => exact not_implFront_prefix (by simp)
    | cons t rest =>
      obtain rfl := hvisibility t (by rw [hvis]; rfl)
      exact not_implFront_prefix (by simp)
  have hfront : item.visibility ++ .ident "struct" :: .ident word :: .punct ';' false :: more
      = (item.visibility ++ [Tree.ident "struct"]) ++ .ident word :: .punct ';' false :: more := by
    rw [List.append_assoc, List.singleton_append]
  have hlength : item.visibility.length + 1
      = (item.visibility ++ [Tree.ident "struct"]).length := by
    rw [List.length_append, List.length_singleton]
  unfold next?
  rw [if_neg hother, hfront, if_pos (List.prefix_append ..), hlength, List.drop_left]
  simp only [typeName?_of_isName hword, Option.map_some]

/-- An `impl` without parameters has the members of the type that is named, also where it is that of
the struct. -/
theorem next?_companion (hvisibility : Reader.IsVisibility item.visibility) {word : String}
    (hword : isName word = true) (content : List Tree) :
    item.next? [.ident "impl", .ident word, .braces content]
      = members? (unraw word) [.braces content] := by
  by_cases himpl : item.implFront <+: [.ident "impl", .ident word, .braces content]
  · obtain ⟨hname, hfront⟩ := implFront_of_prefix himpl
    unfold next?
    rw [if_pos himpl, hname, hfront]
    rfl
  · have hstruct : ¬ item.visibility ++ [.ident "struct"]
        <+: [.ident "impl", .ident word, .braces content] := by
      rintro ⟨rest, hrest⟩
      cases hvis : item.visibility with
      | nil =>
        rw [hvis] at hrest
        simp at hrest
      | cons t front =>
        obtain rfl := hvisibility t (by rw [hvis]; rfl)
        rw [hvis] at hrest
        simp at hrest
    unfold next?
    rw [if_neg himpl, if_neg hstruct]
    simp only [typeName?_of_isName hword, Option.bind_some]

theorem definitions?_nil : item.definitions? [] = some [] := by
  rw [definitions?]
  rfl

/-- The item at the front is read first. -/
theorem definitions?_of_next (hnext : item.next? (withoutAttributes trees) = some (defs, more))
    (hne : withoutAttributes trees ≠ []) (hmore : more.length < trees.length) :
    item.definitions? trees = (item.definitions? more).map (defs ++ ·) := by
  rw [definitions?]
  cases htrees : withoutAttributes trees with
  | nil => exact absurd htrees hne
  | cons first others =>
    rw [htrees] at hnext
    dsimp only
    rw [hnext]
    exact if_pos hmore

/-- What the constants of a struct define. -/
theorem definitions?_constants {constants : List FieldConstant} (more : List Tree)
    (hnames : ∀ constant ∈ constants, name? constant.name = some constant.name) :
    item.definitions? (Expansion.constants item constants ++ more)
      = (item.definitions? more).map
          ((constants.map fun constant ↦ .constant (unraw item.name) constant.name constant.value)
            ++ ·) := by
  have htrees : Expansion.constants item constants ++ more
      = Tree.attr [.ident "allow", .parens [.ident "non_upper_case_globals"]] ++
          (item.implFront ++ .braces (constants.flatMap Expansion.constant) :: more) := by
    simp [Expansion.constants, Expansion.allow, Expansion.idents, implFront]
  rw [htrees]
  apply definitions?_of_next
  · rw [withoutAttributes_attr]
    exact (next?_impl _).trans (members?_braces more (fun constant _ ↦ isItem_constant constant)
      fun constant hconstant ↦ member?_constant _ (hnames constant hconstant))
  · exact List.cons_ne_nil _ _
  · simp only [List.length_append, List.length_cons]
    omega

variable {name : String} {builders : List PathBuilder}
  (hvisibility : Reader.IsVisibility item.visibility) (hname : isName name = true)

include hvisibility hname

/-- A unit struct is read before what is behind it. -/
theorem definitions?_struct (text : String) (more : List Tree) :
    item.definitions? (Expansion.doc text ++
        (item.visibility ++ .ident "struct" :: .ident name :: .punct ';' false :: more))
      = (item.definitions? more).map ([.struct (unraw name)] ++ ·) := by
  have hfront : withoutAttributes (Expansion.doc text ++
      (item.visibility ++ .ident "struct" :: .ident name :: .punct ';' false :: more))
        = item.visibility ++ .ident "struct" :: .ident name :: .punct ';' false :: more := by
    rw [Expansion.doc, withoutAttributes_attr, withoutAttributes_visibility _ _ hvisibility]
  apply definitions?_of_next
  · rw [hfront, next?_struct hvisibility hname]
  · rw [hfront]
    simp
  · simp only [List.length_append, List.length_cons]
    omega

/-- What the functions of a companion define. -/
theorem definitions?_functions (hnames : ∀ builder ∈ builders,
      name? builder.name = some builder.name ∧ name? builder.param = some builder.param) :
    item.definitions? (Expansion.allow "non_snake_case" ++
        [.ident "impl", .ident name, .braces (builders.flatMap Expansion.function)])
      = some (builders.map fun builder ↦ .function (unraw name) (expandedFn builder)) := by
  have hnext : item.next? [.ident "impl", .ident name,
      .braces (builders.flatMap Expansion.function)]
        = some (builders.map fun builder ↦ .function (unraw name) (expandedFn builder), []) := by
    rw [next?_companion hvisibility hname]
    exact members?_braces [] (fun builder _ ↦ isItem_function builder) fun builder hbuilder ↦
      member?_function _ (hnames builder hbuilder).1 (hnames builder hbuilder).2
  rw [definitions?_of_next hnext, definitions?_nil, Option.map_some, List.append_nil]
  · exact List.cons_ne_nil _ _
  · simp

/-- What a companion defines. -/
theorem definitions?_companion (hnames : ∀ builder ∈ builders,
      name? builder.name = some builder.name ∧ name? builder.param = some builder.param) :
    item.definitions? (Expansion.companion item name builders)
      = some (.struct (unraw name) ::
          builders.map fun builder ↦ .function (unraw name) (expandedFn builder)) := by
  have htrees : Expansion.companion item name builders
      = Expansion.doc ("Schema path builders for [`" ++ unraw item.name ++ "`].") ++
          (item.visibility ++ .ident "struct" :: .ident name :: .punct ';' false ::
            (Expansion.allow "non_snake_case" ++
              [.ident "impl", .ident name, .braces (builders.flatMap Expansion.function)])) := by
    simp [Expansion.companion, Expansion.idents, Tree.op]
  rw [htrees, definitions?_struct hvisibility hname,
    definitions?_functions hvisibility hname hnames, Option.map_some, List.singleton_append]

omit hname in
/-- **What an expansion is read as.** The constants of the struct, and its companion where there are
builders, provided that what they are called are names. -/
theorem definitions?_generated {options : Options} {descriptors : List Descriptor}
    (hcompanion : isName (item.companionName options) = true)
    (hconstants : ∀ constant ∈ constantsOf descriptors, name? constant.name = some constant.name)
    (hbuilders : ∀ builder ∈ buildersOf descriptors,
      name? builder.name = some builder.name ∧ name? builder.param = some builder.param) :
    item.definitions? (item.generated options descriptors)
      = some (definitionsWith expandedFn (unraw item.name) (unraw (item.companionName options))
          descriptors) := by
  have hbehind : item.definitions? (if (buildersOf descriptors).isEmpty then []
      else Expansion.companion item (item.companionName options) (buildersOf descriptors))
        = some (if (buildersOf descriptors).isEmpty then []
            else .struct (unraw (item.companionName options)) ::
              (buildersOf descriptors).map fun builder ↦
                .function (unraw (item.companionName options)) (expandedFn builder)) := by
    split
    · exact definitions?_nil
    · exact definitions?_companion hvisibility hcompanion hbuilders
  rw [generated, definitionsWith]
  split
  · rename_i hnil
    rw [List.isEmpty_iff.mp hnil]
    exact definitions?_nil
  · rw [definitions?_constants _ hconstants, hbehind, Option.map_some]

end StructItem

end Rust

end FieldPaths
