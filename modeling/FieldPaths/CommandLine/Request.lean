import FieldPaths.CommandLine.Misuse

/-!
# Reading a command line

The words of a command line are read from left to right. Words before the first command belong to
the program, those after it to the command. Reading stops at the first word that asks for help or
that cannot stand where it does.

An argument that takes a value is open until the next argument shows that no value is left for it,
so what is wrong with a value is found then. A word that is unknown is found at once and comes
first.
-/

namespace FieldPaths.CommandLine

/-! ## Requests -/

/-- Where schemas come from, and which declarations are asked for. -/
structure Input where
  paths : List String
  /-- A schema text on the command line itself. -/
  text : Option String
  /-- The patterns of the selection. -/
  patterns : List String
  /-- The names of further leaf types. -/
  leaves : List String
deriving Repr, DecidableEq

/-- What descriptors are written as. -/
inductive Format where
  | rust
  | json
deriving Repr, DecidableEq

/-- How descriptors are written, and where to. -/
structure GenOptions where
  format : Format := .rust
  /-- What the names of companions end with. -/
  suffix : String := "Paths"
  header : Bool := true
  /-- Whether data is laid out on several lines. -/
  indented : Bool := true
  /-- The file to write, or nothing for the standard output. -/
  output : Option String := none
deriving Repr, DecidableEq

/-- What is to be done with the schemas. -/
inductive Task where
  | gen (options : GenOptions)
  /-- Warnings count as errors where the check is strict. -/
  | check (strict : Bool)
  | dump
deriving Repr, DecidableEq

/-- What a command line asks for. -/
structure Request where
  input : Input
  /-- How many times it is asked for more of what the run tells about itself. -/
  verbosity : Nat
  /-- Whether diagnostics are coloured. -/
  coloured : Bool
  task : Task
deriving Repr, DecidableEq

/-- Why a command line is no request. -/
inductive Stop where
  /-- It asks for help, at length or in short. -/
  | help (scope : Scope) (long : Bool)
  /-- It asks for help about asking for help. -/
  | helpAboutHelp
  | version
  /-- It says nothing. -/
  | nothing
  | misused (error : UsageError)
deriving Repr, DecidableEq

/-- The stop at a misuse. -/
def Stop.ofMisuse (misuse : Misuse) (usage : List String) : Stop := .misused ⟨misuse, usage⟩

/-! ## What was given so far -/

/-- The arguments that were read, in their order. -/
structure Progress where
  /-- The arguments that are complete, with their values. -/
  given : List (Argument × List String) := []
  /-- The argument that is open, with its values so far. -/
  pending : Option (Argument × List String) := none
  /-- Whether all that follows are values. -/
  onlyValues : Bool := false
deriving Repr, DecidableEq

namespace Progress

/-- Whether an argument is complete. -/
def has (p : Progress) (a : Argument) : Bool := p.given.any (·.1 == a)

/-- How many times an argument is given. -/
def count (p : Progress) (a : Argument) : Nat := p.given.countP (·.1 == a)

/-- The values of an argument. -/
def values (p : Progress) (a : Argument) : List String :=
  (p.given.filter (·.1 == a)).flatMap (·.2)

/-- The value of an argument that is given once. -/
def value? (p : Progress) (a : Argument) : Option String := (p.values a).head?

/-- The argument that has to get a value. -/
def awaiting? (p : Progress) : Option Argument :=
  match p.pending with
  | some (a, []) => some a
  | _ => none

end Progress

/-- What is wrong with a value. -/
def Argument.misuse? (a : Argument) (value : String) : Option Misuse :=
  match a.description.value with
  | some { form := .path, .. } => if value.isEmpty then some (.missingValue a) else none
  | some { form := .choice choices, .. } =>
    if choices.any (·.word == value) then none
    else if value.isEmpty then some (.missingValue a)
    else some (.wrongValue a value)
  | _ => none

namespace Progress

/-- Completes an argument: it has its value, it is not given too often, and its values are
allowed. -/
def complete (scope : Scope) (p : Progress) (a : Argument) (values : List String) :
    Except Stop Progress :=
  if a.takesValue && values.isEmpty then .error (.ofMisuse (.missingValue a) [])
  else if !a.description.repeats && p.has a then .error (.ofMisuse (.repeated a) scope.usage)
  else
    match values.findSome? a.misuse? with
    | some misuse => .error (.ofMisuse misuse [])
    | none => .ok { p with given := p.given ++ [(a, values)] }

/-- Completes the argument that is open. -/
def close (scope : Scope) (p : Progress) : Except Stop Progress :=
  match p.pending with
  | none => .ok p
  | some (a, values) => { p with pending := none }.complete scope a values

/-- Opens an argument that waits for its value. -/
def await (scope : Scope) (p : Progress) (a : Argument) : Except Stop Progress := do
  return { ← p.close scope with pending := some (a, []) }

/-- An argument with its value in the same word. -/
def assign (scope : Scope) (p : Progress) (a : Argument) (value : String) :
    Except Stop Progress := do
  (← p.close scope).complete scope a [value]

/-- A switch. Those that ask for something to be shown stop the reading. -/
def switch (scope : Scope) (p : Progress) (a : Argument) (long : Bool) : Except Stop Progress := do
  let p ← p.close scope
  match a with
  | .help => .error (.help scope long)
  | .version => .error .version
  | a => p.complete scope a []

/-- A value that is known by its place. -/
def place (scope : Scope) (p : Progress) (value : String) : Except Stop Progress := do
  match p.pending with
  | some (.schema, values) => return { p with pending := some (.schema, values ++ [value]) }
  | _ => return { ← p.close scope with pending := some (.schema, [value]) }

end Progress

/-! ## Unknown words -/

/-- The usage of the program after some of its arguments. -/
def Scope.usageAfter (scope : Scope) (used : List Argument) : List String :=
  match scope, used.eraseDups with
  | root, [] => scope.usage
  | root, used => [" ".intercalate ("schemapath" :: used.map (·.shown) ++ ["<COMMAND>"])]
  | command _, _ => scope.usage

/-- An argument of a command among the words that follow, whose name is similar; of several
commands, that of the first one. -/
def Tip.ofCommands (name : String) (words : List String) : Option Tip :=
  let found := Command.all.filterMap fun c => do
    let long ← Similarity.mostSimilar? name (Scope.command c).longNames
    let position ← words.idxOf? c.name
    return (position, Tip.afterCommand c long)
  ((found.mergeSort fun x y => x.1 ≤ y.1).head?).map (·.2)

/-- The stop at a long name that is not known, with the words that follow. -/
def Progress.unknownLong (scope : Scope) (p : Progress) (name : String) (words : List String) :
    Stop :=
  let text := "--" ++ name
  let used := p.given.map (·.1)
  let unknown (tip : Option Tip) (used : List Argument) : Stop :=
    .ofMisuse (.unknownArgument text tip) (scope.usageAfter used)
  match Similarity.mostSimilar? name scope.longNames with
  | some long => unknown (some (.similar long)) (used ++ (scope.long? long).toList)
  | none =>
    if scope.hasPlaces then unknown (some (.asValue text)) used
    else unknown (Tip.ofCommands name words) used

/-- The stop at a short name that is not known. -/
def unknownShort (scope : Scope) (name : Char) : Stop :=
  let text := "-" ++ name.toString
  .ofMisuse (.unknownArgument text (if scope.hasPlaces then some (.asValue text) else none)) scope.usage

/-! ## Reading words -/

namespace Progress

/-- A word after two dashes: a name and, behind a sign of equality, a value. -/
def readLong (scope : Scope) (p : Progress) (word : List Char) (words : List String) :
    Except Stop Progress :=
  let name := String.ofList (word.takeWhile (· != '='))
  let value? : Option String :=
    match word.dropWhile (· != '=') with
    | [] => none
    | _ :: value => some (String.ofList value)
  match scope.long? name with
  | none => .error (p.unknownLong scope name words)
  | some a =>
    match a.takesValue, value? with
    | true, some value => p.assign scope a value
    | true, none => p.await scope a
    | false, none => p.switch scope a true
    | false, some value =>
      .error (.ofMisuse (.unneededValue a value) (scope.usageAfter (p.given.map (·.1) ++ [a])))

/-- The characters after one dash: switches, the last of them perhaps an argument with its value,
where a sign of equality before the value is not part of it. -/
def readShort (scope : Scope) (p : Progress) : List Char → Except Stop Progress
  | [] => .ok p
  | c :: more =>
    match scope.short? c with
    | none => .error (unknownShort scope c)
    | some a =>
      if a.takesValue then
        match more with
        | [] => p.await scope a
        | '=' :: value => p.assign scope a (String.ofList value)
        | value => p.assign scope a (String.ofList value)
      else do (← p.switch scope a false).readShort scope more

/-- Reads a word, unless it is a value that is known by its place: such a word is handed to
`value`. -/
def readWord (scope : Scope) (value : Progress → String → Except Stop Progress) (p : Progress)
    (word : String) (words : List String) : Except Stop Progress :=
  if p.onlyValues then value p word
  else if word == "--" then .ok { p with onlyValues := true }
  else
    match word.toList, p.awaiting? with
    | '-' :: '-' :: name, _ => p.readLong scope name words
    | '-' :: c :: more, _ => p.readShort scope (c :: more)
    | _, some a => .ok { p with pending := some (a, [word]) }
    | _, none => value p word

end Progress

/-! ## Reading a command line -/

/-- What the arguments of a command ask for, when it was asked `outer` times for more before it.
That counts if it is not asked for more behind the command. -/
def Command.request (command : Command) (outer : Nat) (p : Progress) : Request where
  input :=
    { paths := p.values .schema, text := p.value? .text, patterns := p.values .type,
      leaves := p.values .leaf }
  verbosity := if p.has .verbose then p.count .verbose else outer
  coloured := p.value? .color == some "always"
  task := match command with
    | .gen => .gen
      { format := if p.value? .format == some "json" then .json else .rust
        suffix := (p.value? .pathsSuffix).getD "Paths"
        header := !p.has .noHeader
        indented := !p.has .compact
        output := p.value? .output }
    | .check => .check (p.has .strict)
    | .dump => .dump

/-- Reads the words after a command. -/
def Command.read (command : Command) (outer : Nat) (p : Progress) :
    List String → Except Stop Request
  | [] => do return command.request outer (← p.close (.command command))
  | word :: words => do
    let scope := Scope.command command
    let p ← p.readWord scope (Progress.place scope) word words
    command.read outer p words

/-- The command with this name. -/
def Command.ofName? (name : String) : Option Command := all.find? (·.name == name)

/-- Where the words lead that ask for the help of a command. -/
def helpOn : List String → Stop
  | [] => .help .root true
  | word :: words =>
    match Command.ofName? word, word == helpCommand, words with
    | some command, _, [] => .help (.command command) true
    | some command, _, word :: _ => .ofMisuse (.unknownCommand word []) command.usage
    | none, true, [] => .helpAboutHelp
    | none, true, word :: _ => .ofMisuse (.unknownCommand word []) helpUsage
    | none, false, _ => .ofMisuse (.unknownCommand word []) Scope.root.usage

/-- The stop at a word before any command that is none. -/
def noCommand (p : Progress) (word : String) : Stop :=
  let usage := Scope.root.usage
  if p.onlyValues && commandNames.contains word then .ofMisuse (.commandAmongValues word) usage
  else .ofMisuse (.unknownCommand word (Similarity.similarTo word commandNames)) usage

/-- Reads the words before a command. -/
def readRoot (p : Progress) : List String → Except Stop Request
  | [] =>
    if p.given.isEmpty then .error .nothing
    else .error (.ofMisuse .missingCommand Scope.root.usage)
  | word :: words =>
    match p.onlyValues, Command.ofName? word, word == helpCommand with
    | false, some command, _ => command.read (p.count .verbose) {} words
    | false, none, true => .error (helpOn words)
    | _, _, _ => do
      let p ← p.readWord .root (fun p word => .error (noCommand p word)) word words
      readRoot p words

/-- Reads a command line. -/
def Request.read (words : List String) : Except Stop Request := readRoot {} words

end FieldPaths.CommandLine
