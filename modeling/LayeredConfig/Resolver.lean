import LayeredConfig.Observers
import LayeredConfig.Pass
import LayeredConfig.Source

/-!
# Resolvers

A resolver has sources, lowest precedence first, and observers. Each call runs one pass: files are
asked before overlays, sources behind one that ends the pass are not asked, and the observers see the
events of the pass. Here and in the other modules, definitions cite the lines of the requirements
document `SPEC_FULL.md` that they follow, and the operation as it is called there.
-/

namespace LayeredConfig

/-- Sources, observers, and the diagnostics of the last pass. See `SPEC_FULL.md:128–130`,
`ConfigurationResolver`. -/
structure Resolver where
  sources : List Source
  observers : Observers := {}
  diagnostics : List Diagnostic := []

namespace Resolver

/-- A resolver with given observers; without any there are counters, and a tracker unless histories
are not wanted. See `SPEC_FULL.md:128–130`. -/
def build (sources : List Source) (observers : List Observer := [])
    (trackHistory : Bool := true) : Resolver :=
  let chosen :=
    if observers.isEmpty then .telemetry :: (if trackHistory then [.history] else []) else observers
  { sources, observers := chosen.foldl Observers.attach {} }

/-- A source before and after it was asked, with its report. -/
structure Asked where
  before : Source
  report : Report
  after : Source

/-- Ask every source. -/
def askAll (r : Resolver) (w : World) (key : Option String) : List Asked :=
  r.sources.map fun s ↦
    let (report, after) := s.ask w key
    { before := s, report, after }

/-- The reports in processing order: files first. -/
def reports (asked : List Asked) : List Report :=
  let reports := asked.map Asked.report
  reports.filter (·.kind = .file) ++ reports.filter (·.kind = .overlay)

/-- The sources after a pass. Only those that the pass came to have changed: so many of the files and
so many of the overlays. -/
def settle : Nat → Nat → List Asked → List Source
  | _, _, [] => []
  | files, overlays, a :: rest =>
    match a.report.kind, files, overlays with
    | .file, files + 1, overlays => a.after :: settle files overlays rest
    | .overlay, files, overlays + 1 => a.after :: settle files overlays rest
    | _, files, overlays => a.before :: settle files overlays rest

/-- Run a pass. With a key, sources are asked only for what stands there, and a default is placed if
nothing does. See `SPEC_FULL.md:133–135`, `resolve`. -/
def resolve (r : Resolver) (w : World) (key : Option String) (default : Option Value) :
    Except Error Config × Resolver :=
  let asked := r.askAll w key
  let outcome := Pass.run (reports asked) key default
  let files := asked.countP (·.report.kind = .file)
  (outcome.result,
    { sources := settle outcome.consulted (outcome.consulted - files) asked
      observers := r.observers.notifyAll outcome.events
      diagnostics := outcome.diagnostics })

/-- Resolve one key. See `SPEC_FULL.md:136`, `resolve_value`. -/
def resolveValue (r : Resolver) (w : World) (key : String) (default : Option Value) :
    Except Error (Option Value) × Resolver :=
  let (result, r) := r.resolve w (some key) default
  (result.map (·.lookup key), r)

/-- Attach an observer. See `SPEC_FULL.md:137–138`, `attach_observer`. -/
def attach (r : Resolver) (o : Observer) : Resolver :=
  { r with observers := r.observers.attach o }

/-- Attach a tracker if there is none. Whether there was none comes with the resolver.
See `SPEC_FULL.md:139`, `ensure_history_tracking`. -/
def ensureHistory (r : Resolver) : Bool × Resolver :=
  match r.observers.history with
  | some _ => (false, r)
  | none => (true, r.attach .history)

/-- The history of a key in the last pass. See `SPEC_FULL.md:140–141`, `get_resolution_history`. -/
def history? (r : Resolver) (key : String) : Option History :=
  r.observers.history.bind (·.get? key)

/-- Take the events that recorders have noted. -/
def takeJournal (r : Resolver) : List Event × Resolver :=
  (r.observers.journal, { r with observers := { r.observers with journal := [] } })

/-- Names and kinds of the sources. See `SPEC_FULL.md:144`, `sources`. -/
def listing (r : Resolver) : List (String × SourceKind) := r.sources.map fun s ↦ (s.name, s.kind)

/-- Debugging text. -/
def debug (r : Resolver) : String :=
  let source (e : String × SourceKind) : String :=
    "(" ++ DebugText.quote e.1 ++ ", " ++ Candidate.kindText e.2 ++ ")"
  DebugText.record "ConfigurationResolver"
    [("sources", "[" ++ Text.join ", " (r.listing.map source) ++ "]"),
      ("history", DebugText.flag r.observers.history.isSome),
      ("telemetry", DebugText.flag r.observers.telemetry.isSome),
      ("custom_observers", toString r.observers.listeners)]

end Resolver

end LayeredConfig
