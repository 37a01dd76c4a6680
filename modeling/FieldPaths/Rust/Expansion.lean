import FieldPaths.Descriptor
import FieldPaths.Rust.ItemReader
import FieldPaths.Rust.Options
import FieldPaths.Rust.Quoted

/-!
# Expanding a schema attribute

A struct with the attribute `schema` is written out again with its descriptors after it: the
constants in an `impl` of the struct, and the builders in an `impl` of a companion type, which
is as visible as the struct. Neither is written where there is nothing to put into it.

The struct itself stays as it is but for the attribute that only keeps a field from having a
descriptor, which is taken away.
-/

namespace FieldPaths.Rust

/-- Why there is no expansion. -/
inductive ExpansionError where
  | fault (cause : Fault)
  /-- The item declares no type. -/
  | notType
  /-- The declaration can have no descriptors, or not these. -/
  | refused (errors : List SchemaError)
  /-- The type can have no descriptors, but nothing was found wrong with it. -/
  | misplaced
deriving Repr, DecidableEq

/-- The wording of a schema error where the declaration is an item. -/
def refusalMessage : SchemaError → String
  | .invalidTarget typeName =>
    "`#[schema]` cannot be applied to `" ++ typeName ++ "`: expected a struct with named fields"
  | error => error.message

/-- The wording of an expansion error. -/
def ExpansionError.message : ExpansionError → String
  | fault cause => cause.message
  | notType => "`#[schema]` can only be applied to structs"
  | refused errors => "\n".intercalate (errors.map refusalMessage)
  | misplaced => "`#[schema]` cannot be applied here"

namespace Expansion

/-- What the name of a companion ends with. -/
def companionSuffix : String := "Paths"

/-- A comment that documents what comes next. -/
def doc (text : String) : List Tree :=
  Tree.attr [.ident Attr.docName, .punct '=' false, .literal (quoted text)]

/-- The attribute that switches a warning off. -/
def allow (lint : String) : List Tree := Tree.attr [.ident "allow", .parens [.ident lint]]

/-- Words one after the other. -/
def idents (names : List String) : List Tree := names.map .ident

/-- A constant with its comment. -/
def constant (constant : FieldConstant) : List Tree :=
  doc ("Schema path of `" ++ constant.value ++ "`.") ++
    idents ["pub", "const", constant.name] ++ Tree.op ":" ++ Tree.op "&" ++
    Tree.lifetime "static" ++ idents ["str"] ++ Tree.op "=" ++ [.literal (quoted constant.value)] ++
    Tree.op ";"

/-- A function with its comment. -/
def function (builder : PathBuilder) : List Tree :=
  doc ("Schema path of `" ++ builder.param ++ "` nested under `" ++ builder.field ++ "`.") ++
    idents ["pub", "fn", builder.name] ++
    [.parens (idents [builder.param] ++ Tree.op ":" ++ Tree.op "&" ++ idents ["str"])] ++
    Tree.op "->" ++ Tree.op "::" ++ idents ["std"] ++ Tree.op "::" ++ idents ["string"] ++
    Tree.op "::" ++ idents ["String"] ++
    [.braces ([.group .bracket ([.literal (quoted builder.lead)] ++ Tree.op "," ++
        idents [builder.param])] ++ Tree.op "." ++ idents ["concat"] ++ [.parens []])]

/-- The constants of a struct. -/
def constants (item : StructItem) (constants : List FieldConstant) : List Tree :=
  allow "non_upper_case_globals" ++ idents ["impl"] ++ item.generics.angled Param.declared ++
    idents [item.name] ++ item.generics.angled Param.use ++ item.generics.whereTokens ++
    [.braces (constants.flatMap constant)]

/-- The companion of a struct. -/
def companion (item : StructItem) (name : String) (builders : List PathBuilder) : List Tree :=
  doc ("Schema path builders for [`" ++ unraw item.name ++ "`].") ++ item.visibility ++
    idents ["struct", name] ++ Tree.op ";" ++ allow "non_snake_case" ++ idents ["impl", name] ++
    [.braces (builders.flatMap function)]

/-- What is wrong with a declaration, if anything is. -/
def refusal? (synthesis : Synthesis Unit) : Option ExpansionError :=
  match synthesis.errors with
  | [] => none
  | errors => some (.refused (errors.map (·.error)))

/-- What is wrong with a declaration that can have no descriptors. -/
def refusal (decl : Declaration Unit) (leaves : LeafTable) : ExpansionError :=
  (refusal? (decl.synthesis leaves)).getD .misplaced

end Expansion

namespace StructItem

/-- The name of the companion of a struct. -/
def companionName (item : StructItem) (options : Options) : String :=
  options.companion.getD (Rust.companionName (unraw item.name) Expansion.companionSuffix)

/-- What is written after a struct for its descriptors. -/
def generated (item : StructItem) (options : Options) (descriptors : List Descriptor) :
    List Tree :=
  let builders := buildersOf descriptors
  (if descriptors.isEmpty then [] else Expansion.constants item (constantsOf descriptors)) ++
    if builders.isEmpty then []
    else Expansion.companion item (item.companionName options) builders

/-- The descriptors of a struct and what is wrong with it. -/
def synthesis (item : StructItem) (options : Options) : Synthesis Unit :=
  item.declaration.synthesis ⟨options.leaves⟩

/-- A struct with its descriptors after it. -/
def expansion (item : StructItem) (options : Options) : Except ExpansionError (List Tree) :=
  let synthesis := item.synthesis options
  match Expansion.refusal? synthesis with
  | some error => .error error
  | none => .ok (item.withoutTransient.tokens ++ item.generated options synthesis.descriptors)

end StructItem

/-- An item with its descriptors after it. A type that is no struct is taken for an interface, and
what is wrong with that is said. -/
def Item.expansion (options : Options) : Item → Except ExpansionError (List Tree)
  | .struct item => item.expansion options
  | .otherType name => .error (Expansion.refusal (interfaceLike name) ⟨options.leaves⟩)
  | .other => .error .notType

/-- The expansion of an item under an attribute with the given content. What is wrong with the
attribute is said first. -/
def expand (attr item : List Tree) : Except ExpansionError (List Tree) := do
  let options ← (Options.ofTrees attr).mapError .fault
  let item ← (Item.ofTrees item).mapError .fault
  item.expansion options

end FieldPaths.Rust
