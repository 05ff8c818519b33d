import LayeredConfig.Command.Invocation
import LayeredConfig.History.Export
import LayeredConfig.Resolver
import LayeredConfig.Secret.Mask
import LayeredConfig.Settings.Load
import LayeredConfig.Source.Chain

/-!
# Running a task

Every task loads the settings, builds the standard chain with the overrides on top and runs one pass.
What a run prints and the world it leaves are its transcript. It ends with an exit code, or with an
error that the caller has to report.
-/

namespace LayeredConfig.Command

/-- What a run has printed so far, and the world. -/
structure Transcript where
  world : World
  stdout : String := ""
  stderr : String := ""

namespace Transcript

/-- Print a line of output. -/
def print (t : Transcript) (line : String) : Transcript := { t with stdout := t.stdout ++ line ++ "\n" }

/-- Print a line about something that went wrong. -/
def warn (t : Transcript) (line : String) : Transcript := { t with stderr := t.stderr ++ line ++ "\n" }

end Transcript

/-- How a run ends. -/
structure Run where
  result : Except Error Nat
  transcript : Transcript

/-- End with an exit code. -/
def Transcript.exit (t : Transcript) (code : Nat) : Run := ⟨.ok code, t⟩

/-- End with an error. -/
def Transcript.fail (t : Transcript) (e : Error) : Run := ⟨.error e, t⟩

/-- Exit code of a run that went well. See `SPEC_FULL.md:263–264`. -/
def success : Nat := 0

/-- Exit code for configurations that cannot be used. See `SPEC_FULL.md:263–264`. -/
def configurationError : Nat := 2

/-- Whether a diagnostic is worth a line. -/
def isReported (d : Diagnostic) : Bool := d.level == .warning || d.level == .error

/-- Report the warnings and errors of sources. -/
def Transcript.report (t : Transcript) (ds : List Diagnostic) : Transcript :=
  (ds.filter isReported).foldl (fun t d ↦ t.warn ("⚠️  " ++ d.source ++ ": " ++ d.message)) t

/-- The text of a history value, or its fingerprint if it must not be shown. -/
def historyText (showSecrets : Bool) (key : String) (v : Value) : String :=
  if !showSecrets && Parameter.isSensitive key then Secret.fingerprint v else v.compact

/-- What became of a candidate. -/
def status (e : Entry) : String :=
  if e.used then "used"
  else
    match e.overriddenBy with
    | some winner => "overridden by " ++ winner
    | none => "not used"

/-- The line of one candidate. -/
def entryLine (showSecrets : Bool) (key : String) (e : Entry × Nat) : String :=
  "  [" ++ toString e.2 ++ "] " ++ Text.padRight 28 e.1.source ++ " " ++
    Text.padRight 30 (historyText showSecrets key e.1.value) ++ " " ++ status e.1

/-- The lines of a history. -/
def historyLines (showSecrets : Bool) (h : History) : List String :=
  let final := match h.final with
    | some v => historyText showSecrets h.key v
    | none => "<not resolved>"
  ["Key: " ++ h.key, "Final value: " ++ final] ++
    (if h.defaultUsed then ["Default used: yes"] else []) ++
    h.entries.zipIdx.map (entryLine showSecrets h.key)

/-- Run one pass over everything. -/
def resolveAll (r : Resolver) (w : World) : Except Error Config × Resolver := r.resolve w none none

/-- Show the merged configuration or one connection. See `SPEC_FULL.md:260`, `resolve`. -/
def runResolve (r : Resolver) (connection : Option String) (showSecrets : Bool) (t : Transcript) :
    Run :=
  match resolveAll r t.world with
  | (.error (.malformedOutput source cause), _) =>
    (t.warn ("❌ " ++ (Error.malformedOutput source cause).message)).exit configurationError
  | (.error e, _) => t.fail e
  | (.ok c, r) =>
    let t := t.report r.diagnostics
    let shown := match connection with
      | some name => c.requireConnection name
      | none => .ok c.toNested
    match shown with
    | .error e => (t.warn ("❌ " ++ e.message)).exit configurationError
    | .ok table =>
      let table := if showSecrets then table else Secret.masked table
      (t.print (Value.table table).pretty).exit success

/-- Show the history of one key. See `SPEC_FULL.md:261`, `history`. -/
def runHistory (r : Resolver) (key : String) (showSecrets : Bool) (t : Transcript) : Run :=
  match resolveAll r t.world with
  | (.error e, _) => t.fail e
  | (.ok _, r) =>
    let t := t.report r.diagnostics
    match r.history? key with
    | some h => ((historyLines showSecrets h).foldl Transcript.print t).exit success
    | none =>
      (t.print ("No source provided a value for '" ++ key ++ "'")).exit configurationError

/-- Export all histories, into a file or as output. See `SPEC_FULL.md:261`, `export-history`. -/
def runExport (r : Resolver) (output : Option String) (redact : Bool) (t : Transcript) : Run :=
  match resolveAll r t.world with
  | (.error e, _) => t.fail e
  | (.ok _, r) =>
    let t := t.report r.diagnostics
    let tracker := r.observers.history.getD {}
    let text := tracker.documentText redact
    match output with
    | none => (t.print text).exit success
    | some path =>
      match t.world.files.writeText path text with
      | .error cause => t.fail (.io cause)
      | .ok files =>
        let t := { t with world := { t.world with files } }
        let count := toString tracker.histories.length
        (t.print ("✅ Exported " ++ count ++ " keys to " ++ path)).exit success

/-- The resolver of a task. Tasks about histories track them whatever the settings say. -/
def Invocation.resolver (i : Invocation) (s : Settings) (w : World) : Resolver :=
  let wanted := match i.task with
    | .resolve .. => s.history.enabled
    | .history .. | .exportHistory .. => true
  Resolver.build (s.sources.chain w (some i.overrides.flags)) [] wanted

/-- Run the task of a command line. -/
def Invocation.run (i : Invocation) (w : World) : Run :=
  let t : Transcript := { world := w }
  match Settings.loadOrDefault w i.settingsPath with
  | .error fault =>
    let t := t.warn ("❌ Failed to load settings from " ++ i.settingsPath)
    let t := t.warn ("   Error: " ++ (Error.configuration fault).message)
    t.exit configurationError
  | .ok s =>
    let r := i.resolver s w
    match i.task with
    | .resolve connection showSecrets => runResolve r connection showSecrets t
    | .history key showSecrets => runHistory r key showSecrets t
    | .exportHistory output redact =>
      runExport r output (redact.getD s.history.redactExports) t

end LayeredConfig.Command
