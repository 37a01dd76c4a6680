import FieldPaths.CommandLine.Run

/-!
# The program

The outer layer of the command line: looks at the paths that a command line names, has it answered,
and prints and writes what comes of it.
-/

namespace FieldPaths.CommandLine

/-- The number of a fault, which some calls report below zero. -/
def faultNumber (code : UInt32) : Nat := min code.toNat (-code).toNat

/-- A fault of the operating system. -/
def FileFault.ofError : IO.Error → FileFault
  | .noFileOrDirectory .. => notFound
  | e@(.inappropriateType _ code _) =>
    match faultNumber code with
    | 20 => notFolder
    | 21 => isFolder
    | _ => other (toString e)
  | .permissionDenied _ code _ =>
    other ("Permission denied (os error " ++ toString (faultNumber code) ++ ")")
  | e => other (toString e)

/-- Bytes as a text. -/
def decoded (bytes : ByteArray) : Except FileFault String :=
  match String.fromUTF8? bytes with
  | some text => .ok text
  | none => .error .notText

/-- Looks at a path. -/
def look (path : String) : IO Found := do
  match ← ((← IO.currentDir) / path).readDir.toBaseIO with
  | .ok members => return .folder (.ok (members.toList.map (·.fileName)))
  | .error e =>
    match FileFault.ofError e with
    | .notFound => return .nothing .notFound
    | .notFolder =>
      match ← (IO.FS.readBinFile path).toBaseIO with
      | .ok bytes => return .file (decoded bytes)
      | .error e => return .file (.error (.ofError e))
    | fault => return .folder (.error fault)

/-- Looks at a path and, if it is a folder, at its schema files. -/
def lookInto (path : String) : IO (List (String × Found)) := do
  let found ← look path
  match found with
  | .folder (.ok members) =>
    let inside ← (members.filter isSchemaName).mapM fun name => do
      let path := memberPath path name
      return (path, ← look path)
    return (path, found) :: inside
  | _ => return [(path, found)]

/-- The events that a level given in the environment lets through. -/
def filterOf (level : String) : Option (Event → Bool) :=
  let upTo (least : Level) : Option (Event → Bool) := some (·.level.rank ≤ least.rank)
  match level with
  | "off" | "error" => some fun _ => false
  | "warn" => upTo .warn
  | "info" => upTo .info
  | "debug" => upTo .debug
  | "trace" => upTo .trace
  | _ => none

/-- What is around the program, as far as a request asks for it. -/
def Surroundings.gather (input : Input) : IO Surroundings := do
  let found ← (input.paths.filter (· != stdinPath)).mapM lookInto
  let stdin ←
    if input.paths.contains stdinPath then pure (decoded (← (← IO.getStdin).readBinToEnd))
    else pure (.ok "")
  let table := found.flatten
  return {
    find := fun path => (table.lookup path).getD (.nothing .notFound)
    stdin := stdin
    filter := (← IO.getEnv "RUST_LOG").bind filterOf }

/-- Writes the file of an outcome. -/
def Outcome.writeFile (o : Outcome) : IO Outcome := do
  match o.file with
  | none => return o
  | some (path, text) =>
    match ← (IO.FS.writeFile path text).toBaseIO with
    | .ok () => return o
    | .error e => return o.unwritten path (.ofError e)

end FieldPaths.CommandLine

open FieldPaths.CommandLine in
def main (words : List String) : IO UInt32 := do
  let outcome ←
    match Request.read words with
    | .error stop => pure stop.outcome
    | .ok request => do
      let s ← Surroundings.gather request.input
      (request.run s).writeFile
  IO.eprint (String.join (outcome.log.map (·.line)) ++ outcome.err)
  IO.print outcome.out
  return outcome.code.toUInt32
