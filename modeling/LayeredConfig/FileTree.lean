import LayeredConfig.Text.Split

/-!
# Files

The part of a file system that a run can see: nodes by their path from the working directory (paths
from the root begin with the component `/`, those above the working directory with `..`). Reading,
writing and making directories fail for the same reasons and in the same order as on a real system:
a text that can be no path, then on the way along the path a component that is missing, that is no
directory or whose name is too long, then the kind of the last node.
-/

namespace LayeredConfig

/-- Why a file operation fails. -/
inductive FileError where
  | notFound
  | notDirectory
  | isDirectory
  | alreadyExists
  | nameTooLong
  | nulInName
  | notText
  | reported (text : String)
  deriving DecidableEq, Repr

/-- The system's words for a failure. -/
def FileError.message : FileError → String
  | .notFound => "No such file or directory (os error 2)"
  | .notDirectory => "Not a directory (os error 20)"
  | .isDirectory => "Is a directory (os error 21)"
  | .alreadyExists => "File exists (os error 17)"
  | .nameTooLong => "File name too long (os error 36)"
  | .nulInName => "file name contained an unexpected NUL byte"
  | .notText => "stream did not contain valid UTF-8"
  | .reported text => text

/-- What stands at a path. The mode holds the permission bits. -/
inductive Node where
  | file (mode : Nat) (bytes : ByteArray)
  | directory (mode : Nat)

/-- Permission bits of a node. -/
def Node.mode : Node → Nat
  | .file mode _ => mode
  | .directory mode => mode

/-- Whether group or others have any permission. -/
def Node.isOpen (n : Node) : Bool := n.mode &&& 0o077 != 0

/-- The text of a file. -/
def Node.text : Node → Except FileError String
  | .directory _ => .error .isDirectory
  | .file _ bytes =>
    match String.fromUTF8? bytes with
    | some text => .ok text
    | none => .error .notText

/-- Nodes by path. The working directory and those above it are always there. -/
structure FileTree where
  nodes : List (List String × Node) := []

namespace FileTree

/-- A path as components, and whether a slash stands at its end. Single dots are components, but they
lead nowhere. -/
structure Path where
  start : List String
  parts : List String
  slashed : Bool

/-- Read a path. -/
def Path.ofString (text : String) : Path :=
  { start := if text.startsWith "/" then ["/"] else []
    parts := (Text.splitOn '/' text).filter (· != "")
    slashed := text.endsWith "/" }

/-- The components that lead somewhere. -/
def Path.steps (p : Path) : List String := p.parts.filter (· != ".")

/-- The bytes that a path may have. -/
def pathLimit : Nat := 4095

/-- The bytes that one component may have. -/
def nameLimit : Nat := 255

/-- Read the text of a path, unless it cannot be one. -/
def Path.ofText (text : String) : Except FileError Path :=
  if text.toList.contains '\x00' then .error .nulInName
  else if text.isEmpty then .error .notFound
  else if pathLimit < text.utf8ByteSize then .error .nameTooLong
  else .ok (Path.ofString text)

/-- Whether components lead from the working directory straight up, or nowhere. -/
def isAbove (at_ : List String) : Bool := at_.all (· == "..")

/-- The components of the directory above. The root is above itself. -/
def up (at_ : List String) : List String :=
  if at_ = ["/"] then at_ else if isAbove at_ then at_ ++ [".."] else at_.dropLast

/-- The node at a path of components. -/
def node? (t : FileTree) (at_ : List String) : Option Node :=
  if at_ = [] then some (.directory 0o700)
  else if at_ = ["/"] ∨ isAbove at_ then some (.directory 0o755)
  else (t.nodes.find? fun e ↦ e.1 = at_).map Prod.snd

/-- Follow components; every node passed on the way has to be a directory. -/
def walk (t : FileTree) (at_ : List String) : List String → Except FileError (List String)
  | [] => .ok at_
  | part :: rest =>
    match t.node? at_ with
    | none => .error .notFound
    | some (.file _ _) => .error .notDirectory
    | some (.directory _) =>
      if part = "." then t.walk at_ rest
      else if part = ".." then t.walk (up at_) rest
      else if nameLimit < part.utf8ByteSize then .error .nameTooLong
      else t.walk (at_ ++ [part]) rest

/-- The components that a path stands for, if everything before the last one is there. -/
def resolve (t : FileTree) (p : Path) : Except FileError (List String) := t.walk p.start p.parts

/-- The node at a path. -/
def find (t : FileTree) (path : String) : Except FileError Node := do
  let p ← Path.ofText path
  match t.node? (← t.resolve p) with
  | none => throw .notFound
  | some (.file mode bytes) => if p.slashed then throw .notDirectory else return .file mode bytes
  | some (.directory mode) => return .directory mode

/-- Whether something stands at a path. -/
def exists? (t : FileTree) (path : String) : Bool :=
  match t.find path with
  | .ok _ => true
  | .error _ => false

/-- The text of the file at a path. -/
def readText (t : FileTree) (path : String) : Except FileError String :=
  t.find path >>= Node.text

/-- Put a node at components, replacing what is there. -/
def set (t : FileTree) (at_ : List String) (n : Node) : FileTree :=
  ⟨(at_, n) :: t.nodes.filter fun e ↦ e.1 ≠ at_⟩

/-- Put a node at the end of some components, with directories where some are missing on the way. -/
def place (n : Node) (at_ : List String) : List String → FileTree → FileTree
  | [], t => t
  | [last], t => t.set (at_ ++ [last]) n
  | part :: rest, t =>
    if part = ".." then t.place n (up at_) rest
    else
      let at_ := at_ ++ [part]
      match t.node? at_ with
      | some _ => t.place n at_ rest
      | none => (t.set at_ (.directory 0o755)).place n at_ rest

/-- Put a node at a path, with directories where some are missing above it. -/
def put (t : FileTree) (path : String) (n : Node) : FileTree :=
  let p := Path.ofString path
  t.place n p.start p.steps

/-- Remove the node at a path and all that is below it. -/
def remove (t : FileTree) (path : String) : FileTree :=
  match t.resolve (.ofString path) with
  | .error _ => t
  | .ok at_ => ⟨t.nodes.filter fun e ↦ !at_.isPrefixOf e.1⟩

/-- Write a file. A new one may be read by all; one that is there keeps its mode. With a slash at its
end a path asks for a directory, which cannot be written. -/
def writeText (t : FileTree) (path text : String) : Except FileError FileTree := do
  let p ← Path.ofText path
  if p.slashed then
    let _ ← t.walk p.start (p.parts.dropLast ++ ["."])
    throw .isDirectory
  let at_ ← t.resolve p
  match t.node? at_ with
  | some (.directory _) => throw .isDirectory
  | some (.file mode _) => return t.set at_ (.file mode text.toUTF8)
  | none => return t.set at_ (.file 0o644 text.toUTF8)

/-- Make one directory. -/
def makeDirectory (t : FileTree) (p : Path) : Except FileError FileTree := do
  let at_ ← t.resolve p
  match t.node? at_ with
  | some _ => throw .alreadyExists
  | none => return t.set at_ (.directory 0o755)

/-- Whether a directory stands at a path. -/
def isDirectory (t : FileTree) (p : Path) : Bool :=
  match t.resolve p with
  | .error _ => false
  | .ok at_ =>
    match t.node? at_ with
    | some (.directory _) => true
    | _ => false

/-- Make a directory; one that is there already is no failure. -/
def ensureDirectory (t : FileTree) (p : Path) : Except FileError FileTree :=
  match t.makeDirectory p with
  | .ok t => .ok t
  | .error e => if t.isDirectory p then .ok t else .error e

/-- Make a directory. If what it stands in is missing, that is made first. -/
def ensureWithin (t : FileTree) (p : Path)
    (makeParent : FileTree → Except FileError FileTree) : Except FileError FileTree :=
  match t.ensureDirectory p with
  | .error .notFound => do (← makeParent t).ensureDirectory p
  | result => result

/-- Make a directory and all it stands in. The components come last one first. -/
def makeAll (start : List String) : List String → FileTree → Except FileError FileTree
  | [], t => .ok t
  | last :: above, t =>
    t.ensureWithin ⟨start, (last :: above).reverse, false⟩ (makeAll start above)

/-- Make the directory at a path and all it stands in. -/
def makeDirectories (t : FileTree) (path : String) : Except FileError FileTree :=
  if path.isEmpty then .ok t
  else do
    let p ← Path.ofText path
    t.ensureWithin p (makeAll p.start p.steps.reverse.tail)

end FileTree

end LayeredConfig
