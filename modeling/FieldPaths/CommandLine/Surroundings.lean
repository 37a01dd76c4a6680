import FieldPaths.CommandLine.Log

/-!
# Reading sources

The sources of a compilation come from the command line, from files and folders, and from the
standard input. What is around the program is a value here: what is found at each path, what the
standard input holds, and which events the environment wants to see. The order in which a folder
lists its members has no meaning, so they are taken in the order of their names.

Only files and folders are found. What is something else to an operating system, such as a pipe that
has a path, is left out.
-/

namespace FieldPaths.CommandLine

/-- Why a file is not read or written. -/
inductive FileFault where
  | notFound
  | notFolder
  | isFolder
  /-- The bytes of the file are no text. -/
  | notText
  /-- Anything else, in the words of the operating system. -/
  | other (message : String)
deriving Repr, DecidableEq

/-- The wording of a fault. -/
def FileFault.message : FileFault → String
  | notFound => "No such file or directory (os error 2)"
  | notFolder => "Not a directory (os error 20)"
  | isFolder => "Is a directory (os error 21)"
  | notText => "stream did not contain valid UTF-8"
  | other message => message

/-- What is found at a path. -/
inductive Found where
  | file (text : Except FileFault String)
  /-- A folder, with the names of its members in any order. -/
  | folder (members : Except FileFault (List String))
  | nothing (fault : FileFault)

/-- What is around the program. -/
structure Surroundings where
  find : String → Found
  stdin : Except FileFault String
  /-- Which events are shown, where the environment says so. -/
  filter : Option (Event → Bool) := none

/-- Why there is nothing to compile. -/
inductive LoadError where
  /-- No source is named. -/
  | noSource
  /-- All sources are blank. -/
  | blank
  | stdin (fault : FileFault)
  | unreadable (path : String) (fault : FileFault)
  /-- A folder holds no schema file. -/
  | noSchemaIn (path : String)
deriving Repr, DecidableEq

/-- The wording of a load error. -/
def LoadError.message : LoadError → String
  | noSource => "schema is required: use positional arguments or -t/--text"
  | blank => "schema cannot be empty"
  | stdin fault => "failed to read stdin: " ++ fault.message
  | unreadable path fault => "failed to read '" ++ path ++ "': " ++ fault.message
  | noSchemaIn path => "no .schema files found in directory '" ++ path ++ "'"

/-- The path of a member of a folder. -/
def memberPath (folder name : String) : String :=
  if folder.toList.getLast? == some '/' then folder ++ name else folder ++ "/" ++ name

/-- Whether a file of this name is a schema file: something stands before the extension. -/
def isSchemaName (name : String) : Bool :=
  let extension := ".schema"
  extension.toList.isSuffixOf name.toList && extension.length < name.length

namespace Surroundings

/-- Whether there is a file at a path. -/
def isFile (s : Surroundings) (path : String) : Bool :=
  match s.find path with
  | .file _ => true
  | _ => false

/-- The text of the file at a path. -/
def text (s : Surroundings) (path : String) : Except LoadError String :=
  match s.find path with
  | .file (.ok text) => .ok text
  | .file (.error fault) | .nothing fault => .error (.unreadable path fault)
  | .folder _ => .error (.unreadable path .isFolder)

/-- The file at a path as a source. -/
def fileSource (s : Surroundings) (path : String) : Except LoadError Source :=
  (s.text path).map fun text => ⟨.file path, text⟩

/-- The names of the schema files among the members of a folder, in their order. -/
def schemaNames (s : Surroundings) (folder : String) (members : List String) : List String :=
  (members.filter fun name => isSchemaName name && s.isFile (memberPath folder name)).mergeSort
    fun a b => a ≤ b

/-- The sources at a path: a file, or the schema files of a folder. -/
def sourcesAt (s : Surroundings) (path : String) : Except LoadError (List Source) :=
  match s.find path with
  | .folder (.error fault) => .error (.unreadable path fault)
  | .folder (.ok members) =>
    match s.schemaNames path members with
    | [] => .error (.noSchemaIn path)
    | names => names.mapM fun name => s.fileSource (memberPath path name)
  | _ => (s.fileSource path).map ([·])

/-- The path that stands for the standard input. -/
def stdinPath : String := "-"

/-- The sources at some paths, when `stdin` is what the standard input still holds. It is read to
its end where it is named first. -/
def sources (s : Surroundings) (stdin : Except FileFault String) :
    List String → Except LoadError (List Source)
  | [] => .ok []
  | path :: more =>
    if path == stdinPath then do
      let text ← stdin.mapError LoadError.stdin
      return ⟨.stdin, text⟩ :: (← s.sources (.ok "") more)
    else do
      let here ← s.sourcesAt path
      return here ++ (← s.sources stdin more)

/-- All sources: the text of the command line, then those at the paths. -/
def load (s : Surroundings) (paths : List String) (text : Option String) :
    Except LoadError (List Source) :=
  if paths.isEmpty && text.isNone then .error .noSource
  else (s.sources s.stdin paths).map ((text.map (⟨.inline, ·⟩)).toList ++ ·)

/-! ## Events -/

/-- The paths of the files that are read for a path. -/
def filesAt (s : Surroundings) (path : String) : List String :=
  match s.find path with
  | .folder (.ok members) => (s.schemaNames path members).map (memberPath path)
  | .folder (.error _) => []
  | _ => [path]

/-- The events of reading the sources at some paths, up to the first fault. -/
def loadEvents (s : Surroundings) (stdin : Except FileFault String) : List String → List Event
  | [] => []
  | path :: more =>
    if path == stdinPath then
      match stdin with
      | .ok _ => s.loadEvents (.ok "") more
      | .error _ => []
    else
      ((s.filesAt path).takeWhile fun file => (s.text file).isOk).map .loaded ++
        match s.sourcesAt path with
        | .ok _ => s.loadEvents stdin more
        | .error _ => []

/-- Whether an event is shown, when more is asked for this many times. What the environment says
comes first. -/
def shows (s : Surroundings) (verbosity : Nat) (event : Event) : Bool :=
  match s.filter with
  | some filter => filter event
  | none => event.level.rank ≤ (Level.ofVerbosity verbosity).rank

end Surroundings

end FieldPaths.CommandLine
