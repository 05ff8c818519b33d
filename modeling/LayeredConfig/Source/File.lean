import LayeredConfig.Candidate
import LayeredConfig.Source.Layout
import LayeredConfig.World

/-!
# File sources

A file is read once: what the first successful reading found, or that the file was skipped, is
remembered. A missing file counts as empty, and neither that nor a failure is remembered. A file that
group or others may use is reported each time it is found so, and skipped if the policy asks for it.
-/

namespace LayeredConfig

/-- What to do about a file that group or others may use. See `SPEC_FULL.md:117–118`. -/
inductive Policy where
  | ignore
  | warn
  | skip
  deriving DecidableEq, Repr

/-- The word for a policy. -/
def Policy.name : Policy → String
  | .ignore => "ignore"
  | .warn => "warn"
  | .skip => "skip"

/-- The policy with a name. -/
def Policy.ofName? (name : String) : Option Policy :=
  [Policy.ignore, .warn, .skip].find? fun p ↦ p.name == name

/-- A file as a source. See `SPEC_FULL.md:108–110`. -/
structure FileSource where
  name : String
  path : String
  layout : Layout
  policy : Policy := .warn
  parsed : Option Table := none
  pending : List Diagnostic := []

namespace FileSource

/-- A file with the usual name of its layout. -/
def ofPath (layout : Layout) (path : String) : FileSource :=
  { name := layout.sourceName, path, layout }

/-- The report about permissions. -/
def openNotice (s : FileSource) : Diagnostic :=
  { source := s.name
    level := .warning
    message := "file permissions too open on " ++ s.path ++
      (if s.policy = .skip then ", skipped" else "") }

/-- Read what stands at the path and remember it. -/
def parse (s : FileSource) (n : Node) : Except Error Table × FileSource :=
  match n.text with
  | .error cause => (.error (.configuration (.unreadable s.path cause)), s)
  | .ok text =>
    match s.layout.read text with
    | .error fault => (.error (.configuration fault), s)
    | .ok t => (.ok t, { s with parsed := some t })

/-- The table of the file, given what stands at its path. See `SPEC_FULL.md:116–119`. -/
def load (s : FileSource) (found : Except FileError Node) : Except Error Table × FileSource :=
  match s.parsed, found with
  | some t, _ => (.ok t, s)
  | none, .error _ => (.ok [], s)
  | none, .ok n =>
    if s.policy ≠ .ignore ∧ n.isOpen then
      let s := { s with pending := s.pending ++ [s.openNotice] }
      if s.policy = .skip then (.ok [], { s with parsed := some [] }) else s.parse n
    else s.parse n

/-- The table of the file, or the part of it under a key. -/
def discover (s : FileSource) (w : World) (key : Option String) : Except Error Table × FileSource :=
  let (answer, s) := s.load (w.files.find s.path)
  (answer.map fun t ↦ Table.select t key, s)

/-- Hand out the reports that were not handed out yet. -/
def drain (s : FileSource) : List Diagnostic × FileSource := (s.pending, { s with pending := [] })

end FileSource

end LayeredConfig
