import LayeredConfig.Value
import LayeredConfig.FileTree
import LayeredConfig.Syntax

/-!
# Errors

Every failure is a cause; its text is made in one place. A cause ending in `reported` carries the
words of a source that fails for a reason of its own.
-/

namespace LayeredConfig

/-- Why the output of a source has no connections in it. See `SPEC_FULL.md:222–223`,
`MalformedSourceOutput`. -/
inductive Malformed where
  | branch (found : Kind)
  | connection (name : String) (found : Kind)
  | reported (text : String)
  deriving DecidableEq, Repr

/-- The cause in words. -/
def Malformed.message : Malformed → String
  | .branch found => "'connections' must be a table, found " ++ found.name
  | .connection name found =>
    "connection '" ++ name ++ "' must be a table, found " ++ found.name
  | .reported text => text

/-- Why a value cannot be placed. -/
inductive Misplaced where
  | notTable (path : String) (found : Kind)
  | reported (text : String)
  deriving DecidableEq, Repr

/-- The cause in words. -/
def Misplaced.message : Misplaced → String
  | .notTable path found =>
    "'" ++ path ++ "' names a connection and needs a table, found " ++ found.name
  | .reported text => text

/-- Settings that are well formed but make no sense. -/
inductive InvalidSetting where
  | emptyMainPath
  | emptyConnectionsPath
  | emptyLegacyPath (path : String)
  | rotation (text : String)
  | emptyLogPath
  deriving DecidableEq, Repr

/-- The cause in words. -/
def InvalidSetting.message : InvalidSetting → String
  | .emptyMainPath => "sources.config_toml_path cannot be empty"
  | .emptyConnectionsPath => "sources.connections_toml_path cannot be empty"
  | .emptyLegacyPath path =>
    "sources.legacy_config_paths contains an empty entry: '" ++ path ++ "'"
  | .rotation text =>
    "Invalid logging.local_rotation '" ++ text ++ "'. Must be one of: daily, hourly"
  | .emptyLogPath => "logging.local_path is required when local logging is enabled"

/-- Why a file or setting cannot be used. -/
inductive Fault where
  | settingsMissing (path : String)
  | unreadable (path : String) (cause : FileError)
  | missingVariables (names : List String)
  | settingsSyntax (cause : SyntaxError)
  | tomlSyntax (cause : SyntaxError)
  | iniSyntax (cause : SyntaxError)
  | permissionPolicy (text : String)
  | invalidSettings (cause : InvalidSetting)
  | logLevel (text : String)
  | logRotation (text : String)
  | logDirectory (path : String) (cause : FileError)
  | reported (text : String)
  deriving DecidableEq, Repr

/-- The cause in words. -/
def Fault.message : Fault → String
  | .settingsMissing path => "Configuration file not found: " ++ path
  | .unreadable path cause =>
    "Failed to read configuration file " ++ path ++ ": " ++ cause.message
  | .missingVariables names =>
    "Missing required environment variables: " ++ Text.join ", " names
  | .settingsSyntax cause => "Failed to parse TOML: " ++ cause.message
  | .tomlSyntax cause => "TOML parse error: " ++ cause.message
  | .iniSyntax cause => "INI parse error: " ++ cause.message
  | .permissionPolicy text =>
    "Invalid CONFLUX_SOURCES_PERMISSION_POLICY '" ++ text ++
      "'. Must be one of: ignore, warn, skip"
  | .invalidSettings cause => "Configuration validation failed: " ++ cause.message
  | .logLevel text =>
    "Invalid log level: " ++ text ++ ". Must be one of: trace, debug, info, warn, error"
  | .logRotation text => "Invalid log rotation: " ++ text ++ ". Must be one of: daily, hourly"
  | .logDirectory path cause =>
    "Failed to create log directory " ++ path ++ ": " ++ cause.message
  | .reported text => text

/-- Everything that can go wrong. See `SPEC_FULL.md:214–217`, `ConfluxError`. -/
inductive Error where
  | configuration (fault : Fault)
  | sourceFailed (source text : String)
  | malformedOutput (source : String) (cause : Malformed)
  | missingConnection (name : String)
  | validation (cause : Misplaced)
  | serialization (text : String)
  | io (cause : FileError)
  deriving DecidableEq, Repr

/-- The text of an error. -/
def Error.message : Error → String
  | .configuration fault => "Configuration error: " ++ fault.message
  | .sourceFailed source text => "Source '" ++ source ++ "' failed: " ++ text
  | .malformedOutput source cause =>
    "Source '" ++ source ++ "' returned malformed output: " ++ cause.message
  | .missingConnection name => "Connection '" ++ name ++ "' is not configured"
  | .validation cause => "Validation error: " ++ cause.message
  | .serialization text => "Serialization error: " ++ text
  | .io cause => "I/O error: " ++ cause.message

end LayeredConfig
