import LayeredConfig.Report
import LayeredConfig.Source.Environment
import LayeredConfig.Source.File
import LayeredConfig.Source.Fixed
import LayeredConfig.Source.Flags

/-!
# Sources

All kinds of sources behind one interface. Asking a source yields its report, and the source as it is
afterwards.
-/

namespace LayeredConfig

/-- A source of values. See `SPEC_FULL.md:91–97`, `ValueSource`. -/
inductive Source where
  | fixed (s : FixedSource)
  | flags (s : Flags)
  | environment (s : EnvironmentSource)
  | file (s : FileSource)

namespace Source

/-- The name under which a source appears in histories and diagnostics. -/
def name : Source → String
  | .fixed s => s.name
  | .flags _ => Flags.sourceName
  | .environment s => s.scheme.sourceName
  | .file s => s.name

/-- Whether a source defines connections or overlays fields. -/
def kind : Source → SourceKind
  | .fixed s => s.kind
  | .flags _ | .environment _ => .overlay
  | .file _ => .file

/-- What a source finds in its surroundings, or the part of it under a key. See `SPEC_FULL.md:94`,
`discover`. -/
def discover (w : World) (key : Option String) : Source → Except Error Table × Source
  | .fixed s => (s.discover key).map id .fixed
  | .flags s => (.ok (Table.select s.values key), .flags s)
  | .environment s =>
    let bindings := s.bindings.getD w.environment
    (.ok (Table.select (s.scheme.tableOf bindings) key), .environment s)
  | .file s => (s.discover w key).map id .file

/-- The diagnostics that a source has collected; each is handed out once. See `SPEC_FULL.md:95`,
`consume_diagnostics`. -/
def drain : Source → List Diagnostic × Source
  | .fixed s => s.drain.map id .fixed
  | .flags s => ([], .flags s)
  | .environment s => ([], .environment s)
  | .file s => s.drain.map id .file

/-- The text that a value was converted from. -/
def rawText (s : Source) (key : String) : Option String :=
  match s with
  | .fixed s => Keyed.get? key s.raw
  | .flags s => Keyed.get? key s.raw
  | .environment _ | .file _ => none

/-- Ask a source. -/
def ask (w : World) (key : Option String) (s : Source) : Report × Source :=
  let (outcome, s) := s.discover w key
  let (notices, s) := s.drain
  ({ source := s.name, kind := s.kind, outcome, notices, rawText := s.rawText }, s)

end Source

end LayeredConfig
