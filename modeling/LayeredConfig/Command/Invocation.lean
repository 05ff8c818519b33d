import LayeredConfig.Command.Line
import LayeredConfig.Secret.Held
import LayeredConfig.Source.Flags
import LayeredConfig.World

/-!
# Invocations

What the program can be asked to do: show the merged configuration, show the history of one key, or
export all histories. Options for connection parameters make up the source with the highest
precedence.
-/

namespace LayeredConfig.Command

/-- Connection parameters given as options. See `SPEC_FULL.md:261–263`. -/
structure Overrides where
  texts : Keyed String := []
  password : Option Secret.Held := none
  port : Option Port := none

/-- The overrides as a source of flags. The port is a number and keeps its text. -/
def Overrides.flags (o : Overrides) : Flags :=
  let texts := o.texts.map fun e ↦ (e.1, Value.string e.2)
  let password := (o.password.map fun s ↦ ("password", Value.string s.exposed)).toList
  let port := (o.port.map fun p ↦ ("port", Value.int p.number)).toList
  let flags := Flags.ofPairs (texts ++ password ++ port)
  match o.port with
  | some p => flags.withRaw "port" p.text
  | none => flags

/-- What to do. See `SPEC_FULL.md:260–261`. -/
inductive Task where
  | resolve (connection : Option String) (showSecrets : Bool)
  | history (key : String) (showSecrets : Bool)
  | exportHistory (output : Option String) (redact : Option Bool)

/-- A whole command line. -/
structure Invocation where
  settingsPath : String
  logLevel : Option String
  task : Task
  overrides : Overrides

/-- Overrides that are plain texts. -/
def textOverrides : List String :=
  ["account", "user", "role", "warehouse", "database", "schema", "host", "authenticator"]

/-- The option that asks for help. -/
def helpRule : OptionRule := { long := "help", short := some 'h', take := .help }

/-- The options that every subcommand has. -/
def commonRules : List OptionRule :=
  helpRule :: { long := "password", take := .text } :: { long := "port", take := .port } ::
    textOverrides.map fun long ↦ { long, take := .text }

/-- The option to show secrets. -/
def secretsRule : OptionRule := { long := "show-secrets", take := .switch }

/-- The names of the subcommands. -/
def subcommandNames : List String := ["resolve", "history", "export-history"]

/-- The words of a subcommand. -/
def subcommandGrammar (name : String) : Grammar :=
  match name with
  | "resolve" =>
    { options := { long := "connection", take := .text } :: secretsRule :: commonRules }
  | "history" => { options := secretsRule :: commonRules, arguments := ["key"] }
  | _ =>
    { options := { long := "output", short := some 'o', take := .text } ::
        { long := "redact", take := .boolean } :: commonRules }

/-- The words in front of a subcommand. -/
def mainGrammar : Grammar :=
  { options :=
      [helpRule, { long := "version", short := some 'V', take := .version },
        { long := "config", short := some 'c', take := .text },
        { long := "log-level", short := some 'l', take := .text }]
    subcommands := "help" :: subcommandNames }

namespace Progress

/-- The text given for an option or argument. -/
def text? (p : Progress) (long : String) : Option String :=
  match Keyed.get? long p.given with
  | some (.text s) => some s
  | _ => none

/-- Whether a switch was given. -/
def switched (p : Progress) (long : String) : Bool := Keyed.contains long p.given

/-- The overrides that were given. -/
def overrides (p : Progress) : Overrides :=
  { texts := textOverrides.filterMap fun long ↦ (p.text? long).map fun s ↦ (long, s)
    password := (p.text? "password").map fun s ↦ ⟨s⟩
    port :=
      match Keyed.get? "port" p.given with
      | some (.port port) => some port
      | _ => none }

/-- The task of a subcommand. -/
def task (p : Progress) (name : String) : Except UsageError Task :=
  match name with
  | "resolve" => .ok (.resolve (p.text? "connection") (p.switched "show-secrets"))
  | "history" =>
    match p.text? "key" with
    | some key => .ok (.history key (p.switched "show-secrets"))
    | none => .error .missingArgument
  | _ =>
    let redact := match Keyed.get? "redact" p.given with
      | some (.boolean b) => some b
      | _ => none
    .ok (.exportHistory (p.text? "output") redact)

end Progress

/-- Help on a subcommand, or on the whole program. -/
def helpOn : List String → UsageError
  | [] => .help
  | [name] => if ("help" :: subcommandNames).contains name then .help else .invalidSubcommand
  | _ => .invalidSubcommand

/-- Read a subcommand. -/
def readSubcommand (s : Subcommand) : Except UsageError (Task × Overrides) := do
  if s.name = "help" then throw (helpOn s.rest)
  let g := subcommandGrammar s.name
  let (p, _) ← g.read g.start s.rest
  let p ← p.settle
  return (← p.task s.name, p.overrides)

/-- The settings file, unless another one is named. -/
def defaultSettingsPath : String := "conflux.toml"

/-- Read a command line. Two environment variables stand in for the options in front of the
subcommand. -/
def Invocation.ofArguments (w : World) (args : List String) : Except UsageError Invocation := do
  let (p, sub) ← mainGrammar.read mainGrammar.start args
  let parsed ← sub.mapM readSubcommand
  let p ← p.settle
  let settingsPath := p.text? "config" <|> w.lookupVariable? "CONFLUX_CONFIG"
  let logLevel := p.text? "log-level" <|> w.lookupVariable? "CONFLUX_LOG_LEVEL"
  match parsed with
  | some (task, overrides) =>
    return { settingsPath := settingsPath.getD defaultSettingsPath, logLevel, task, overrides }
  | none =>
    if settingsPath.isNone ∧ logLevel.isNone then throw .helpForNothing else throw .missingSubcommand

end LayeredConfig.Command
