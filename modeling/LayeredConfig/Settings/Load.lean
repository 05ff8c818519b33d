import LayeredConfig.Settings.Document
import LayeredConfig.Settings.Placeholders
import LayeredConfig.Text.Lowercase

/-!
# Loading settings

Settings come from a file with placeholders. Environment variables override single settings, and the
result has to make sense. Where a missing file is allowed, the defaults stand in for it.
-/

namespace LayeredConfig.Settings

/-- The two words for a flag; anything else counts as `otherwise`. -/
def flagOr (otherwise : Bool) (text : String) : Bool :=
  if text = "true" then true else if text = "false" then false else otherwise

/-- A list of paths with commas between them. Blanks around a path are no part of it, and empty paths
are dropped. -/
def pathList (text : String) : List String :=
  let (first, others) := Text.cut ',' text.toList
  ((first :: others).map Text.trim).filter (fun p ↦ !p.isEmpty) |>.map String.ofList

/-- The policy in a variable, in letters of either case. -/
def policyOverride (current : Policy) : Option String → Except Fault Policy
  | none => .ok current
  | some text =>
    match Policy.ofName? (Text.lower text) with
    | some p => .ok p
    | none => .error (.permissionPolicy (Text.lower text))

/-- Override settings by environment variables. See `SPEC_FULL.md:251`. -/
def override (w : World) (s : Settings) : Except Fault Settings := do
  let set? (name : String) : Option String := w.lookupVariable? ("CONFLUX_" ++ name)
  let policy ← policyOverride s.sources.policy (set? "SOURCES_PERMISSION_POLICY")
  return {
    sources :=
      { legacyPaths := ((set? "SOURCES_LEGACY_CONFIG_PATHS").map pathList).getD s.sources.legacyPaths
        mainPath := (set? "SOURCES_CONFIG_TOML_PATH").getD s.sources.mainPath
        connectionsPath := (set? "SOURCES_CONNECTIONS_TOML_PATH").getD s.sources.connectionsPath
        readEnvironment :=
          ((set? "SOURCES_ENVIRONMENT_ENABLED").map (flagOr true)).getD s.sources.readEnvironment
        policy }
    history :=
      { enabled := ((set? "HISTORY_ENABLED").map (flagOr true)).getD s.history.enabled
        redactExports :=
          ((set? "HISTORY_REDACT_EXPORTS").map (flagOr true)).getD s.history.redactExports }
    logging :=
      { enabled := ((set? "LOGGING_LOCAL_ENABLED").map (flagOr false)).getD s.logging.enabled
        path := (set? "LOGGING_LOCAL_PATH").getD s.logging.path
        rotation := (set? "LOGGING_LOCAL_ROTATION").getD s.logging.rotation } }

/-- Refuse settings that make no sense. See `SPEC_FULL.md:251`. -/
def validate (s : Settings) : Except Fault Settings :=
  match s.invalid? with
  | some cause => .error (.invalidSettings cause)
  | none => .ok s

/-- Settings as a file has them. -/
def parse (w : World) (text : String) : Except Fault Settings :=
  match Placeholder.substitute w.lookupVariable? text with
  | .error missing => .error (.missingVariables missing)
  | .ok text => (ofText text).mapError .settingsSyntax

/-- Override and validate. -/
def finish (w : World) (s : Settings) : Except Fault Settings := do
  validate (← override w s)

/-- Load a settings file that is there. -/
def loadFound (w : World) (path : String) : Except Fault Settings := do
  let text ← (w.files.readText path).mapError (.unreadable path)
  finish w (← parse w text)

/-- Load a settings file. See `SPEC_FULL.md:250–251`, `load_config`. -/
def load (w : World) (path : String) : Except Fault Settings :=
  if w.files.exists? path then loadFound w path else .error (.settingsMissing path)

/-- Load a settings file, or the defaults if there is none. See `SPEC_FULL.md:254–255`,
`load_or_default`. -/
def loadOrDefault (w : World) (path : String) : Except Fault Settings :=
  if w.files.exists? path then loadFound w path else finish w {}

end LayeredConfig.Settings
