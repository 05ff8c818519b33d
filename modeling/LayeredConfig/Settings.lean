import LayeredConfig.Error
import LayeredConfig.Source.File

/-!
# Settings

The program's own settings: where connections are read from, what becomes of histories, and logging.
-/

namespace LayeredConfig

/-- Where values come from. See `SPEC_FULL.md:252–253`. -/
structure SourceSettings where
  legacyPaths : List String :=
    ["/etc/snowsql.cnf", "/etc/snowflake/snowsql.cnf", "/usr/local/etc/snowsql.cnf",
      "~/.snowsql.cnf", "~/.snowsql/config"]
  mainPath : String := "~/.snowflake/config.toml"
  connectionsPath : String := "~/.snowflake/connections.toml"
  readEnvironment : Bool := true
  policy : Policy := .warn

/-- What becomes of histories. See `SPEC_FULL.md:253`. -/
structure HistorySettings where
  enabled : Bool := true
  redactExports : Bool := true

/-- Logging into files. See `SPEC_FULL.md:253–254`. -/
structure LogSettings where
  enabled : Bool := false
  path : String := "/var/log/conflux"
  rotation : String := "daily"

/-- All settings. See `SPEC_FULL.md:252–254`. -/
structure Settings where
  sources : SourceSettings := {}
  history : HistorySettings := {}
  logging : LogSettings := {}

/-- How often a log file may be changed for a new one. -/
def rotations : List String := ["daily", "hourly"]

/-- What is wrong with the paths, if anything. -/
def SourceSettings.invalid? (s : SourceSettings) : Option InvalidSetting :=
  if Text.allBlank s.mainPath then some .emptyMainPath
  else if Text.allBlank s.connectionsPath then some .emptyConnectionsPath
  else (s.legacyPaths.find? Text.allBlank).map .emptyLegacyPath

/-- What is wrong with logging, if anything. -/
def LogSettings.invalid? (s : LogSettings) : Option InvalidSetting :=
  if !rotations.contains s.rotation then some (.rotation s.rotation)
  else if s.enabled && Text.allBlank s.path then some .emptyLogPath
  else none

/-- What is wrong with the settings, if anything. -/
def Settings.invalid? (s : Settings) : Option InvalidSetting :=
  s.sources.invalid? <|> s.logging.invalid?

end LayeredConfig
