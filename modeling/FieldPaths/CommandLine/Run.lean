import FieldPaths.CommandLine.Request
import FieldPaths.CommandLine.Surroundings
import FieldPaths.DecisionTable
import FieldPaths.Excerpt.Report
import FieldPaths.Generated.Document
import FieldPaths.Generated.Items

/-!
# Running a command line

What the program answers: what it prints, the file it writes and its exit code. A run only says
what is to be written, and at most one file is: all else is known by then, so a run that finds
something wrong has left nothing behind.
-/

namespace FieldPaths.CommandLine

/-- What comes of a run. -/
structure Outcome where
  /-- What is printed to the standard output. -/
  out : String := ""
  /-- What is printed to the standard error, besides the events. -/
  err : String := ""
  /-- The events that are shown there, in their order. -/
  log : List Event := []
  /-- The path and the text of the file that is to be written. -/
  file : Option (String × String) := none
  /-- The exit code, zero where nothing is wrong. -/
  code : Nat := 0
deriving Repr, DecidableEq

/-- A message on a line of its own. -/
def errorLine (message : String) : String := "error: " ++ message ++ "\n"

/-- The outcome where the file cannot be written after all. -/
def Outcome.unwritten (o : Outcome) (path : String) (fault : FileFault) : Outcome :=
  { o with
    err := o.err ++ errorLine ("failed to write '" ++ path ++ "': " ++ fault.message)
    log := o.log.filter (· != .wrote path)
    file := none
    code := 1 }

/-! ## Compiling -/

/-- Compiles the input, unless there is nothing to compile. -/
def Input.compile (input : Input) (s : Surroundings) : Except LoadError Compilation := do
  let sources ← s.load input.paths input.text
  if Source.allBlank sources then throw .blank
  return FieldPaths.compile sources ⟨input.leaves⟩ (.ofPatterns input.patterns)

/-- The diagnostics as they are printed, if there are any. -/
def report (coloured : Bool) (c : Compilation) : String :=
  if c.diagnostics.isEmpty then ""
  else Diagnostic.excerpts coloured c.sources c.diagnostics ++ "\n"

/-- A line for each pattern that describes no declaration. -/
def unmatchedLines (level : String) (c : Compilation) : String :=
  String.join (c.unmatched.map fun pattern =>
    level ++ ": " ++ (OutputError.unmatchedSelection pattern).message ++ "\n")

/-! ## The commands -/

/-- The text of the descriptors. -/
def GenOptions.text (o : GenOptions) (c : Compilation) : Except OutputError String :=
  match o.format with
  | .rust => c.rustText { suffix := o.suffix, header := o.header }
  | .json => c.jsonText o.indented

/-- Writes the descriptors. Warnings are shown, and errors stop it. Printing does not fail, other
than writing a file. -/
def generate (coloured : Bool) (o : GenOptions) (c : Compilation) : Outcome :=
  if !c.unmatched.isEmpty then { err := unmatchedLines "error" c, code := 1 }
  else if !c.isValid then { err := report coloured c, code := 1 }
  else
    match o.text c, o.output with
    | .error e, _ => { err := report coloured c ++ errorLine e.message, code := 1 }
    | .ok text, none => { out := text ++ "\n", err := report coloured c }
    | .ok text, some path => { file := some (path, text ++ "\n"), err := report coloured c }

/-- Whether a compilation passes a check. -/
def passes (strict : Bool) (c : Compilation) : Bool :=
  c.isValid && !(strict && Diagnostic.hasWarnings c.diagnostics)

/-- Checks a compilation, and says nothing where nothing is wrong. -/
def check (coloured strict : Bool) (c : Compilation) : Outcome :=
  if !c.unmatched.isEmpty then { err := unmatchedLines "error" c, code := 1 }
  else if passes strict c then {}
  else { err := report coloured c, code := 1 }

/-- Shows the decisions, whatever is wrong. -/
def dump (coloured : Bool) (c : Compilation) : Outcome :=
  let table := c.decisionTables
  { out := if table.isEmpty then "" else table ++ "\n"
    err := unmatchedLines "warning" c ++ report coloured c
    code := if c.isValid then 0 else 1 }

/-- Does what is to be done with a compilation. -/
def Task.run (coloured : Bool) (c : Compilation) : Task → Outcome
  | gen options => generate coloured options c
  | check strict => CommandLine.check coloured strict c
  | dump => CommandLine.dump coloured c

/-! ## Events -/

/-- The events of what is done with a compilation. -/
def Task.events (c : Compilation) : Task → List Event
  | gen o =>
    if c.unmatched.isEmpty && c.isValid then
      (match o.format with
        | .rust => Generated.events { suffix := o.suffix, header := o.header } c.types
        | .json => []) ++
      match o.text c with
      | .ok _ => (o.output.map .wrote).toList
      | .error _ => []
    else []
  | check _ | dump => []

/-- The events of a request. -/
def Request.events (s : Surroundings) (r : Request) : List Event :=
  s.loadEvents s.stdin r.input.paths ++
    match r.input.compile s with
    | .ok c => c.events ++ r.task.events c
    | .error _ => []

/-! ## Answers -/

/-- Answers a request, whatever is shown of the events. -/
def Request.answer (s : Surroundings) (r : Request) : Outcome :=
  match r.input.compile s with
  | .error e => { err := errorLine e.message, code := 1 }
  | .ok c => r.task.run r.coloured c

/-- The events of a request that are shown. -/
def Request.log (s : Surroundings) (r : Request) : List Event :=
  (r.events s).filter (s.shows r.verbosity)

/-- Answers a request. -/
def Request.run (s : Surroundings) (r : Request) : Outcome := { r.answer s with log := r.log s }

/-- What is printed instead of answering a request. Help that is asked for is no error. -/
def Stop.outcome : Stop → Outcome
  | help scope long => { out := scope.help long }
  | helpAboutHelp => { out := helpHelp }
  | version => { out := versionText }
  | nothing => { err := Scope.root.help false, code := 2 }
  | misused e => { err := e.report, code := 2 }

/-- Answers a command line. -/
def run (s : Surroundings) (words : List String) : Outcome :=
  match Request.read words with
  | .ok request => request.run s
  | .error stop => stop.outcome

end FieldPaths.CommandLine
