import FieldPaths.CommandLine.Options

/-!
# Help

The help of the program and of its commands. It has two layouts: one line for every argument, what
it is for in a second column; or, where the words that an argument takes have meanings of their
own, a paragraph for every argument, in the help that is asked for at length.
-/

namespace FieldPaths.CommandLine

/-! ## The parts of an entry -/

/-- An argument as its entry begins. Arguments without a short name leave its room empty. -/
def Argument.heading (a : Argument) : String :=
  match a.description.short with
  | some c => "-" ++ c.toString ++ ", " ++ a.shown
  | none => if a.description.long.isSome then "    " ++ a.shown else a.shown

/-- The default value of an argument in brackets. -/
def Argument.defaultNote (a : Argument) : List String :=
  match a.description.value with
  | some { default := some value, .. } => ["[default: " ++ value ++ "]"]
  | _ => []

/-- The words that an argument takes in brackets. -/
def Argument.choicesNote (a : Argument) : List String :=
  if a.choices.isEmpty then []
  else ["[possible values: " ++ ", ".intercalate (a.choices.map (·.word)) ++ "]"]

/-- Whether there is more to say about an argument than fits on a line. -/
def Argument.hasDetails (a : Argument) : Bool := a.choices.any (·.meaning.isSome)

/-- Whether the arguments are described in two layouts. -/
def Scope.hasDetails (scope : Scope) : Bool := scope.arguments.any (·.hasDetails)

/-- What an argument is for. The argument that asks for help says which other help there is. -/
def Argument.aboutIn (scope : Scope) (long : Bool) (a : Argument) : String :=
  a.description.about ++
    if a = .help && scope.hasDetails then
      if long then " (see a summary with '-h')" else " (see more with '--help')"
    else ""

/-! ## The layouts -/

/-- Entries on a line each, what they are for in a second column. -/
def twoColumns (entries : List (String × String)) : List String :=
  let width := (entries.map (·.1.length)).foldl max 0
  entries.map fun (heading, about) =>
    "  " ++ heading ++ String.ofList (List.replicate (width - heading.length + 2) ' ') ++ about

/-- The second column of an argument. -/
def Argument.summary (scope : Scope) (a : Argument) : String :=
  " ".intercalate (a.aboutIn scope false :: a.defaultNote ++ a.choicesNote)

/-- The paragraph of an argument: its notes are apart from what it is for, and the meanings of its
words take the place of their list. -/
def Argument.paragraph (scope : Scope) (a : Argument) : List String :=
  let indent := "          "
  let meanings :=
    if a.hasDetails then
      "" :: (indent ++ "Possible values:") ::
        a.choices.map fun c => indent ++ "- " ++ c.word ++ ": " ++ c.meaning.getD ""
    else []
  let notes := a.defaultNote ++ if a.hasDetails then [] else a.choicesNote
  ("  " ++ a.heading) :: (indent ++ a.aboutIn scope true) :: meanings ++
    if notes.isEmpty then [] else indent :: notes.map (indent ++ ·)

/-- The entries of some arguments. -/
def Scope.entries (scope : Scope) (long : Bool) (arguments : List Argument) : List String :=
  if long && scope.hasDetails then
    [""].intercalate (arguments.map (·.paragraph scope))
  else twoColumns (arguments.map fun a => (a.heading, a.summary scope))

/-! ## Whole texts -/

/-- A part of a help with its title, which is left out with nothing under it. -/
def titled (title : String) (lines : List String) : List String :=
  if lines.isEmpty then [] else "" :: title :: lines

/-- What a command asking for help is for. -/
def helpAbout : String := "Print this message or the help of the given subcommand(s)"

/-- The commands with what they are for. -/
def commandEntries : List String :=
  twoColumns (Command.all.map (fun c => (c.name, c.about)) ++ [(helpCommand, helpAbout)])

/-- The help of the program or of a command. -/
def Scope.help (scope : Scope) (long : Bool) : String :=
  let (about, commands, examples) := match scope with
    | root => ("Schema path descriptors for typed field references", commandEntries, [])
    | command c => (c.about, [], c.examples.map ("  " ++ ·))
  let (places, options) := scope.arguments.partition (·.description.long.isNone)
  let lines := about :: "" :: usageText scope.usage :: titled "Commands:" commands ++
    titled "Arguments:" (scope.entries long places) ++
    titled "Options:" (scope.entries long options) ++ titled "EXAMPLES:" examples
  "\n".intercalate lines ++ "\n"

/-- The usage of the word that asks for help. -/
def helpUsage : List String := ["schemapath help [COMMAND]..."]

/-- The help of the word that asks for help. -/
def helpHelp : String :=
  "\n".intercalate
    (helpAbout :: "" :: usageText helpUsage ::
      titled "Arguments:" (twoColumns [("[COMMAND]...", "Print help for the subcommand(s)")])) ++
    "\n"

/-- The name and the version of the program. -/
def versionText : String := "schemapath 0.1.0\n"

end FieldPaths.CommandLine
