import FieldPaths.Text.Similarity

/-!
# Commands and options

What may be written on the command line, as data: the commands, and for each of them its arguments
in the order in which its help shows them. Reading a command line and writing its help both follow
this description.
-/

namespace FieldPaths.CommandLine

/-- The commands on schemas. -/
inductive Command where
  /-- Writes the descriptors. -/
  | gen
  /-- Says whether the descriptors could be written. -/
  | check
  /-- Shows what was decided about each field. -/
  | dump
deriving Repr, DecidableEq

namespace Command

def all : List Command := [gen, check, dump]

def name : Command → String
  | gen => "gen"
  | check => "check"
  | dump => "dump"

def about : Command → String
  | gen => "Generate schema descriptors"
  | check => "Validate schemas"
  | dump => "Show which fields get descriptors and why"

/-- How a command is used. -/
def usage : Command → List String
  | gen => ["schemapath gen <SCHEMA>... [-o <FILE>]", "schemapath gen -t <TEXT> [--format json]"]
  | check => ["schemapath check <SCHEMA>...", "schemapath check -t <TEXT>"]
  | dump => ["schemapath dump <SCHEMA>...", "schemapath dump -t <TEXT>"]

/-- What the help of a command ends with. -/
def examples : Command → List String
  | gen =>
    ["schemapath gen order.schema                 # Rust to stdout",
      "schemapath gen schemas/ -o src/paths.rs     # every *.schema in a directory",
      "schemapath gen order.schema --format json   # augmented schema as JSON",
      "schemapath gen -t '@Schema class A \x7b b: B \x7d'",
      "schemapath gen model.schema --type 'Order*' # select by name"]
  | check =>
    ["schemapath check order.schema               # silent on success",
      "schemapath check schemas/ --strict          # warnings fail too"]
  | dump =>
    ["schemapath dump order.schema",
      "schemapath dump -t '@Schema class A \x7b final b: B; c: int \x7d'"]

end Command

/-- The arguments of all commands. -/
inductive Argument where
  | schema | text | verbose | type | leaf
  | format | pathsSuffix | noHeader | compact | output
  | strict | color | help | version
deriving Repr, DecidableEq

/-- A word that an argument takes as its value, with what it means where that is said. -/
structure Choice where
  word : String
  meaning : Option String := none
deriving Repr, DecidableEq

/-- Which texts an argument takes as its value. -/
inductive ValueForm where
  /-- Any text. -/
  | any
  /-- The path of a file, which is not empty. -/
  | path
  /-- One of a few words. -/
  | choice (choices : List Choice)
deriving Repr, DecidableEq

/-- The value of an argument. -/
structure Value where
  /-- What stands for it in the help. -/
  name : String
  form : ValueForm := .any
  /-- The value where none is given. -/
  default : Option String := none
deriving Repr, DecidableEq

/-- How an argument is written, and what it is for. -/
structure Description where
  /-- The name after one dash. -/
  short : Option Char := none
  /-- The name after two dashes. An argument without one is known by its place. -/
  long : Option String := none
  /-- The value; an argument without one is a switch. -/
  value : Option Value := none
  /-- Whether it may be given any number of times. -/
  repeats : Bool := false
  about : String
deriving Repr, DecidableEq

namespace Argument

def description : Argument → Description
  | schema =>
    { value := some { name := "SCHEMA", form := .path }, repeats := true,
      about := "Schema files or directories of *.schema files (`-` for stdin)" }
  | text =>
    { short := some 't', long := some "text", value := some { name := "TEXT" },
      about := "Inline schema text" }
  | verbose =>
    { short := some 'v', long := some "verbose", repeats := true,
      about := "Log more (-v info, -vv debug, -vvv trace); RUST_LOG overrides" }
  | type =>
    { long := some "type", value := some { name := "NAME" }, repeats := true,
      about := "Process this type instead of @Schema-marked ones (`*` wildcards allowed)" }
  | leaf =>
    { long := some "leaf", value := some { name := "NAME" }, repeats := true,
      about := "Treat this type name as a leaf (no path builder)" }
  | format =>
    { long := some "format", about := "Output format",
      value := some
        { name := "FORMAT", default := some "rust",
          form := .choice
            [⟨"rust", some "Rust source to `include!` next to the types"⟩,
              ⟨"json", some "The synthesized members as JSON"⟩] } }
  | pathsSuffix =>
    { long := some "paths-suffix", about := "Suffix of the generated path-builder struct",
      value := some { name := "SUFFIX", default := some "Paths" } }
  | noHeader => { long := some "no-header", about := "Don't emit the generated-file header" }
  | compact => { long := some "compact", about := "Output compact JSON" }
  | output =>
    { short := some 'o', long := some "output", about := "Write output to file",
      value := some { name := "FILE", form := .path } }
  | strict => { long := some "strict", about := "Treat warnings as errors" }
  | color =>
    { long := some "color", about := "Colorize diagnostics",
      value := some
        { name := "WHEN", default := some "auto",
          form := .choice [⟨"auto", none⟩, ⟨"always", none⟩, ⟨"never", none⟩] } }
  | help => { short := some 'h', long := some "help", about := "Print help" }
  | version => { short := some 'V', long := some "version", about := "Print version" }

/-- Whether an argument comes with a value. -/
def takesValue (a : Argument) : Bool := a.description.value.isSome

/-- The words that an argument takes, where only a few are allowed. -/
def choices (a : Argument) : List Choice :=
  match a.description.value with
  | some { form := .choice choices, .. } => choices
  | _ => []

/-- An argument as messages show it. -/
def shown (a : Argument) : String :=
  match a.description.long, a.description.value with
  | some long, some value => "--" ++ long ++ " <" ++ value.name ++ ">"
  | some long, none => "--" ++ long ++ if a.description.repeats then "..." else ""
  | none, some value => "[" ++ value.name ++ "]..."
  | none, none => ""

end Argument

/-- Where on the command line an argument stands: before any command, or after one. -/
inductive Scope where
  | root
  | command (command : Command)
deriving Repr, DecidableEq

namespace Scope

/-- The arguments that may be given, in the order of the help. -/
def arguments : Scope → List Argument
  | root => [.verbose, .help, .version]
  | command .gen =>
    [.schema, .text, .verbose, .type, .leaf, .format, .pathsSuffix, .noHeader, .compact, .output,
      .color, .help]
  | command .check => [.schema, .text, .verbose, .type, .leaf, .strict, .color, .help]
  | command .dump => [.schema, .text, .verbose, .type, .leaf, .color, .help]

/-- The argument with this name after two dashes. -/
def long? (scope : Scope) (name : String) : Option Argument :=
  scope.arguments.find? (·.description.long == some name)

/-- The argument with this name after one dash. -/
def short? (scope : Scope) (name : Char) : Option Argument :=
  scope.arguments.find? (·.description.short == some name)

/-- The names after two dashes. -/
def longNames (scope : Scope) : List String := scope.arguments.filterMap (·.description.long)

/-- Whether arguments are known by their places. -/
def hasPlaces (scope : Scope) : Bool := scope.arguments.any (·.description.long.isNone)

/-- How the command line goes on from here, in general. -/
def usage : Scope → List String
  | root => ["schemapath [OPTIONS] <COMMAND>"]
  | command c => c.usage

end Scope

/-- The word that asks for the help of a command. -/
def helpCommand : String := "help"

/-- All words that name a command. -/
def commandNames : List String := Command.all.map (·.name) ++ [helpCommand]

/-- The usage of a command line, as it is shown. -/
def usageText (usage : List String) : String := "Usage: " ++ "\n  ".intercalate usage

end FieldPaths.CommandLine
