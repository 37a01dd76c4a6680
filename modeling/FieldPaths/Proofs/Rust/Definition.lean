import FieldPaths.Proofs.Rust.Name
import FieldPaths.Proofs.Rust.Quoted
import FieldPaths.Rust.Tree

/-!
# What Rust text defines

Program text read as definitions: unit structs, and the constants and functions in the `impl` blocks
of a type. Only what descriptors are made of is understood, which is constants with a string literal
and functions of one text that join strings; anything else has no reading. This is meant to be the
language's own view of such text, so nothing here depends on how the text is made.

A name is what Rust takes it for. A keyword is none unless it has the mark of the raw form, and with
the mark it is the same name as without.

A constant is referred to by its owner and its name. The reference has a value only where exactly
one definition has both, a function being in the way just as much as a second constant.
-/

namespace FieldPaths

namespace Rust

/-! ## Definitions -/

/-- One of the strings that a function joins. -/
inductive Operand where
  | constant (owner name : String)
  | literal (value : String)
  | param (name : String)
deriving Repr, DecidableEq

/-- A function of one text that joins strings. -/
structure Fn where
  name : String
  param : String
  body : List Operand
deriving Repr, DecidableEq

/-- A definition. -/
inductive Definition where
  /-- A unit struct. -/
  | struct (name : String)
  | constant (owner name value : String)
  | function (owner : String) (fn : Fn)
deriving Repr, DecidableEq

/-- The name that a word stands for where Rust wants a name. -/
def name? (word : String) : Option String :=
  if isKeyword word || reservedNames.contains (unraw word) then none else some (unraw word)

/-! ## Reading -/

/-- Whether an item ends here. -/
def Tree.endsItem : Tree → Bool
  | punct char _ => char == ';'
  | group delimiter _ => delimiter == .brace
  | _ => false

/-- Trees cut behind every semicolon and every group in braces. -/
def itemsOf : List Tree → List (List Tree)
  | [] => []
  | t :: more =>
    if t.endsItem then [t] :: itemsOf more
    else match itemsOf more with
      | [] => [[t]]
      | item :: others => (t :: item) :: others

/-- An item without the attributes in front. -/
def withoutAttributes : List Tree → List Tree
  | .punct '#' _ :: .group .bracket _ :: more => withoutAttributes more
  | trees => trees

/-- Trees cut at the commas. -/
def splitCommas : List Tree → List (List Tree)
  | [] => [[]]
  | t :: more =>
    if t matches .punct ',' _ then [] :: splitCommas more
    else match splitCommas more with
      | [] => [[t]]
      | part :: others => (t :: part) :: others

/-- A string that is joined. -/
def operand? : List Tree → Option Operand
  | [.literal text] => (unquoted? text).map .literal
  | [.ident word] => (name? word).map .param
  | [.ident owner, .punct ':' true, .punct ':' _, .ident word] => do
    let owner ← name? owner
    let name ← name? word
    return .constant owner name
  | _ => none

/-- The strings that a function joins. -/
def body? : List Tree → Option (List Operand)
  | [.group .bracket parts, .punct '.' _, .ident "concat", .group .paren []] =>
    (splitCommas parts).mapM operand?
  | _ => none

/-- The only parameter of a function, which is a text. -/
def param? : List Tree → Option String
  | [.ident word, .punct ':' _, .punct '&' _, .ident "str"] => name? word
  | _ => none

/-- A public constant or function of `owner`. -/
def member? (owner : String) : List Tree → Option Definition
  | [.ident "pub", .ident "const", .ident word, .punct ':' _, .punct '&' _, .punct '\'' _,
      .ident "static", .ident "str", .punct '=' _, .literal text, .punct ';' _] => do
    let name ← name? word
    let value ← unquoted? text
    return .constant owner name value
  | [.ident "pub", .ident "fn", .ident word, .group .paren params, .punct '-' true, .punct '>' _,
      .ident "String", .group .brace content] => do
    let name ← name? word
    let param ← param? params
    let body ← body? content
    return .function owner ⟨name, param, body⟩
  | _ => none

/-- A public unit struct, or all that an `impl` block defines. -/
def item? : List Tree → Option (List Definition)
  | [.ident "pub", .ident "struct", .ident word, .punct ';' _] =>
    (name? word).map fun name ↦ [.struct name]
  | [.ident "impl", .ident word, .group .brace content] => do
    let owner ← name? word
    (itemsOf content).mapM fun item ↦ member? owner (withoutAttributes item)
  | _ => none

/-- What some items define, in their order. -/
def definitions? (items : List (List Tree)) : Option (List Definition) :=
  (items.mapM fun item ↦ item? (withoutAttributes item)).map List.flatten

namespace Definition

/-- What a text defines, in its order. -/
def read? (text : String) : Option (List Definition) :=
  (Tree.read? text).bind fun trees ↦ definitions? (itemsOf trees)

/-! ## Meaning -/

/-- Whether the definition is what an owner and a name refer to. -/
def isNamed (owner name : String) : Definition → Bool
  | struct _ => false
  | constant owner' name' _ => owner' == owner && name' == name
  | function owner' fn => owner' == owner && fn.name == name

end Definition

variable (defs : List Definition)

/-- The unit structs, in their order. -/
def structsOf : List String :=
  defs.filterMap fun
    | .struct name => some name
    | _ => none

/-- All constants with their owners and values, in their order. -/
def constantsIn : List (String × String × String) :=
  defs.filterMap fun
    | .constant owner name value => some (owner, name, value)
    | _ => none

/-- All functions with their owners, in their order. -/
def functionsIn : List (String × Fn) :=
  defs.filterMap fun
    | .function owner fn => some (owner, fn)
    | _ => none

/-- The constants of a type with their values, in their order. -/
def constantsOn (owner : String) : List (String × String) :=
  defs.filterMap fun
    | .constant owner' name value => if owner' = owner then some (name, value) else none
    | _ => none

/-- The functions of a type, in their order. -/
def functionsOn (owner : String) : List Fn :=
  defs.filterMap fun
    | .function owner' fn => if owner' = owner then some fn else none
    | _ => none

/-- The value of a constant that is the only definition with its owner and name. -/
def constant? (owner name : String) : Option String :=
  match defs.filter (·.isNamed owner name) with
  | [.constant _ _ value] => some value
  | _ => none

/-- The value of a string that is joined, where the parameter `param` has the value `arg`. -/
def Operand.value? (param arg : String) : Operand → Option String
  | constant owner name => constant? defs owner name
  | literal value => some value
  | .param name => if name = param then some arg else none

/-- What a function returns for an argument. -/
def Fn.call? (fn : Fn) (arg : String) : Option String :=
  (fn.body.mapM (Operand.value? defs fn.param arg)).map String.join

/-- The constants that a function refers to, by owner and name. -/
def Fn.references (fn : Fn) : List (String × String) :=
  fn.body.filterMap fun
    | .constant owner name => some (owner, name)
    | _ => none

/-! ## Names -/

theorem unraw_raw (name : String) : unraw ("r#" ++ name) = name := by
  have hraw : ("r#" ++ name).toList = 'r' :: '#' :: name.toList := String.toList_append
  rw [unraw, hraw]
  exact String.ofList_toList

theorem unraw_of_isWord {name : String} (h : IsWord name) : unraw name = name := by
  rw [unraw]
  split
  · rename_i more heq
    refine absurd ?_ (@IsWord.ne_raw name (String.ofList more) h)
    rw [← String.toList_inj, heq, String.toList_append, @String.toList_ofList more]
    rfl
  · rfl

theorem unraw_identifier {name : String} (h : IsWord name) : unraw (identifier name) = name := by
  rw [identifier]
  split
  · exact unraw_raw name
  · exact unraw_of_isWord h

/-- A legal identifier is a name. -/
theorem name?_of_isLegal {word : String} (h : IsLegal word) : name? word = some (unraw word) := by
  have hnone : (isKeyword word || reservedNames.contains (unraw word)) = false := by
    rw [Bool.or_eq_false_iff, isKeyword, ← Bool.not_eq_true, ← Bool.not_eq_true,
      List.contains_iff_mem, List.contains_iff_mem]
    rcases h with ⟨hword, hunderscore, hkeyword, hpath⟩ | ⟨keyword, hkeyword, rfl⟩
    · rw [unraw_of_isWord hword, reservedNames, List.mem_cons, not_or]
      exact ⟨hkeyword, hunderscore, hpath⟩
    · have hkeywords : ∀ k ∈ keywords, "r#" ++ k ∉ keywords ∧ k ∉ reservedNames := by decide +kernel
      rw [unraw_raw]
      exact hkeywords keyword hkeyword
  rw [name?, hnone, if_neg Bool.false_ne_true]

/-- Of the names that can be written, the keywords are none as they are. -/
theorem name?_of_isIdentifier {name : String} (h : isIdentifier name = true) :
    name? name = if isKeyword name then none else some name := by
  split
  · rename_i hkeyword
    rw [name?, hkeyword, Bool.true_or, if_pos rfl]
  · rename_i hkeyword
    have hnot : name ∉ keywords := fun hmem ↦ hkeyword (List.contains_iff_mem.mpr hmem)
    rw [name?_of_isLegal ((isLegal_iff_of_isIdentifier h).mpr hnot),
      unraw_of_isWord (isIdentifier_iff.mp h).1]

/-! ## Values of constants -/

/-- A constant that is the only definition with its owner and name has a value. -/
theorem constant?_of_filter {defs : List Definition} {owner owner' name name' value : String}
    (h : defs.filter (·.isNamed owner name) = [.constant owner' name' value]) :
    constant? defs owner name = some value := by
  rw [constant?, h]

/-! ## Cutting into items -/

/-- Trees that are cut off as one item, whatever comes next. -/
def IsItem (item : List Tree) : Prop :=
  ∀ more, itemsOf (item ++ more) = item :: itemsOf more

/-- Items one after the other are cut apart again. -/
theorem itemsOf_flatten {items : List (List Tree)} (h : ∀ item ∈ items, IsItem item) :
    itemsOf items.flatten = items := by
  induction items with
  | nil => rfl
  | cons item items ih =>
    rw [List.forall_mem_cons] at h
    rw [List.flatten_cons, h.1, ih h.2]

/-! ## Reading one after the other -/

theorem mapM_eq_some {α β : Type} {f : α → Option β} {g : α → β} {l : List α}
    (h : ∀ a ∈ l, f a = some (g a)) : l.mapM f = some (l.map g) := by
  induction l with
  | nil => rfl
  | cons a l ih =>
    rw [List.forall_mem_cons] at h
    rw [List.mapM_cons, h.1, ih h.2]
    rfl

theorem definitions?_nil : definitions? [] = some [] := by
  rw [definitions?, List.mapM_nil]
  rfl

theorem definitions?_cons (item : List Tree) (more : List (List Tree)) :
    definitions? (item :: more) = (item? (withoutAttributes item)).bind fun defs ↦
      (definitions? more).map (defs ++ ·) := by
  rw [definitions?, definitions?, List.mapM_cons]
  cases item? (withoutAttributes item) with
  | none => rfl
  | some defs => cases more.mapM fun item ↦ item? (withoutAttributes item) <;> rfl

theorem definitions?_append (items more : List (List Tree)) :
    definitions? (items ++ more) = (definitions? items).bind fun defs ↦
      (definitions? more).map (defs ++ ·) := by
  induction items with
  | nil =>
    rw [List.nil_append, definitions?_nil]
    exact Option.map_id'.symm
  | cons item items ih =>
    rw [List.cons_append, definitions?_cons, definitions?_cons, ih]
    cases item? (withoutAttributes item) with
    | none => rfl
    | some defs =>
      cases definitions? items with
      | none => rfl
      | some defs' => cases definitions? more <;> simp

end Rust

end FieldPaths
