import LayeredConfig.Command.Program

/-!
# The executable

The outer layer: it reads the environment and the files that a session may look at, runs the session,
and carries out what came of it. Permissions are not visible from here, so every file counts as
private.
-/

namespace LayeredConfig.Executable

/-- The variable that a text `NAME=value` sets. -/
def binding? (text : List Char) : Option (String × String) :=
  (Text.cutOnce '=' text).map fun (name, value) ↦ (String.ofList name, String.ofList value)

/-- The environment of the process. -/
def environment : IO (Keyed String) := do
  match ← (IO.FS.readBinFile "/proc/self/environ").toBaseIO with
  | .error _ => return []
  | .ok bytes =>
    let text := (String.fromUTF8? bytes).getD ""
    let (first, others) := Text.cut '\x00' text.toList
    return Keyed.ofList ((first :: others).filterMap binding?)

/-- What stands at a path. -/
def node? (path : String) : IO (Option Node) := do
  match ← (IO.FS.realPath path).toBaseIO with
  | .error _ => return none
  | .ok found =>
    if ← found.isDir then return some (.directory 0o700)
    match ← (IO.FS.readBinFile path).toBaseIO with
    | .ok bytes => return some (.file 0o600 bytes)
    | .error _ => return none

/-- The path of components. -/
def pathOf : List String → String
  | "/" :: parts => "/" ++ Text.join "/" parts
  | parts => Text.join "/" parts

/-- A path and all directories above it, the highest first. -/
def withAncestors (path : String) : List String :=
  let p := FileTree.Path.ofString path
  (List.range p.parts.length).map fun n ↦ pathOf (p.start ++ p.parts.take (n + 1))

/-- Add what stands at some paths. -/
def look (t : FileTree) (paths : List String) : IO FileTree :=
  (paths.flatMap withAncestors).foldlM (fun t path ↦ do
    match ← node? path with
    | some n => return t.put path n
    | none => return t) t

/-- Make one node as the session left it, if it was not so before. -/
def carryOut (before : FileTree) (e : List String × Node) : IO Unit :=
  match e.2, before.node? e.1 with
  | .directory _, none => IO.FS.createDirAll (pathOf e.1)
  | .file _ bytes, some (.file _ old) =>
    if bytes == old then return () else IO.FS.writeBinFile (pathOf e.1) bytes
  | .file _ bytes, none => IO.FS.writeBinFile (pathOf e.1) bytes
  | _, _ => return ()

/-- Run a session on the process's surroundings. Which files matter is known only after the settings
are, so files are looked at three times. -/
def run (args : List String) : IO UInt32 := do
  let environment ← environment
  let mut files ← look {} [".env"]
  for _ in [0, 1] do
    files ← look files (Command.pathsOfInterest { environment, files } args)
  let s := Command.session { environment, files } args
  s.transcript.world.files.nodes.reverse.forM (carryOut files)
  (← IO.getStdout).putStr s.transcript.stdout
  (← IO.getStderr).putStr s.transcript.stderr
  return UInt32.ofNat s.code

end LayeredConfig.Executable

/-- Run the program on the arguments of the process. -/
def main (args : List String) : IO UInt32 := LayeredConfig.Executable.run args
