import FieldPaths.CommandLine.Run

/-!
# Trees of files

All files and folders, as a value, so that a run has a result that can be looked at: the outcome,
and the tree after it.

A place in a tree is known by the names that lead to it from the top. A path is the names between
its slashes, and starts at the top or in the current folder: an empty name and a single dot stay
where they are, and two dots lead back to the folder before.
-/

namespace FieldPaths.CommandLine

/-- A file or a folder. -/
inductive FileTree where
  /-- A file, with its text, or nothing where its bytes are no text. -/
  | file (text : Option String)
  | folder (members : List (String × FileTree))

namespace FileTree

/-! ## Names from the top -/

/-- What is at the end of the names. -/
def get? : FileTree → List String → Option FileTree
  | tree, [] => some tree
  | file _, _ :: _ => none
  | folder members, name :: names =>
    match members.lookup name with
    | none => none
    | some tree => tree.get? names

/-- The members with `tree` under the name. -/
def setMember (members : List (String × FileTree)) (name : String) (tree : FileTree) :
    List (String × FileTree) :=
  match members with
  | [] => [(name, tree)]
  | (other, old) :: more =>
    if other == name then (name, tree) :: more else (other, old) :: setMember more name tree

/-- The tree with `new` at the end of the names. Folders on the way there are made. -/
def put (new : FileTree) : FileTree → List String → FileTree
  | _, [] => new
  | file _, name :: names => folder [(name, put new (folder []) names)]
  | folder members, name :: names =>
    let old := (members.lookup name).getD (folder [])
    folder (setMember members name (put new old names))

/-- The tree with a folder at the end of the names, which stays as it is where there is one. -/
def addFolder (tree : FileTree) (names : List String) : FileTree :=
  match tree.get? names with
  | some _ => tree
  | none => put (folder []) tree names

mutual

/-- All files with the names that lead to them, which start with `names`. -/
def filesUnder (names : List String) : FileTree → List (List String × Option String)
  | file text => [(names, text)]
  | folder members => filesOfMembers names members

def filesOfMembers (names : List String) :
    List (String × FileTree) → List (List String × Option String)
  | [] => []
  | (name, tree) :: more => filesUnder (names ++ [name]) tree ++ filesOfMembers names more

end

/-- All files with the names that lead to them. -/
def files (tree : FileTree) : List (List String × Option String) := tree.filesUnder []

/-- The files of a tree that are new or changed since another tree. -/
def changesSince (before after : FileTree) : List (List String × Option String) :=
  after.files.filter fun file => !before.files.contains file

/-! ## Paths -/

/-- The names between the slashes of a path. -/
def namesOf (path : String) : List String :=
  (path.toList.splitOn '/').map String.ofList

/-- Follows the names of a path from the place that `here` leads to. Above the top is the top. -/
def follow (tree : FileTree) (here : List String) : List String → Except FileFault (List String)
  | [] => .ok here
  | name :: more =>
    match tree.get? here with
    | none => .error .notFound
    | some (file _) => .error .notFolder
    | some (folder members) =>
      if name == "" || name == "." then follow tree here more
      else if name == ".." then follow tree here.dropLast more
      else if (members.lookup name).isSome then follow tree (here ++ [name]) more
      else .error .notFound

/-- Where a path starts: at the top if it begins with a slash, else in the current folder. -/
def start (current : List String) (path : String) : List String :=
  if path.toList.head? == some '/' then [] else current

/-- What is found at a path, from a current folder. -/
def find (tree : FileTree) (current : List String) (path : String) : Found :=
  if path.isEmpty then .nothing .notFound
  else
    match tree.follow (start current path) (namesOf path) with
    | .error fault => .nothing fault
    | .ok names =>
      match tree.get? names with
      | some (file (some text)) => .file (.ok text)
      | some (file none) => .file (.error .notText)
      | some (folder members) => .folder (.ok (members.map (·.1)))
      | none => .nothing .notFound

/-- Where a file is written at a path: in the folder that the names before the last lead to, under
the last one. A path that ends in a slash or in dots is that of a folder. -/
def target (tree : FileTree) (current : List String) (path : String) :
    Except FileFault (List String) := do
  if path.isEmpty then throw .notFound
  let names := ((namesOf path).reverse.dropWhile (· == "")).reverse
  let last := if path.toList.getLast? == some '/' then "" else names.getLastD ""
  let parent ← tree.follow (start current path) names.dropLast
  match tree.get? parent with
  | some (folder members) =>
    if last == "" || last == "." || last == ".." then throw .isFolder
    else
      match members.lookup last with
      | some (folder _) => throw .isFolder
      | _ => return parent ++ [last]
  | some (file _) => throw .notFolder
  | none => throw .notFound

/-- The tree after writing a text to the file at a path. -/
def write (tree : FileTree) (current : List String) (path text : String) :
    Except FileFault FileTree :=
  (tree.target current path).map (put (file (some text)) tree)

/-! ## Runs -/

/-- The tree as the surroundings of a run in its current folder. -/
def surroundings (tree : FileTree) (current : List String) (stdin : Option String) :
    Surroundings where
  find := tree.find current
  stdin := match stdin with
    | some text => .ok text
    | none => .error .notText

/-- Writes the file of an outcome. -/
def perform (tree : FileTree) (current : List String) (o : Outcome) : Outcome × FileTree :=
  match o.file with
  | none => (o, tree)
  | some (path, text) =>
    match tree.write current path text with
    | .ok after => (o, after)
    | .error fault => (o.unwritten path fault, tree)

/-- Runs a command line in the current folder of a tree. -/
def run (tree : FileTree) (current : List String) (stdin : Option String) (words : List String) :
    Outcome × FileTree :=
  tree.perform current (CommandLine.run (tree.surroundings current stdin) words)

end FileTree

end FieldPaths.CommandLine
