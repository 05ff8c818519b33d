import LayeredConfig.Settings
import LayeredConfig.Source

/-!
# The standard chain

The sources that the settings ask for, lowest precedence first: legacy files, the main file, the file
of connections, three kinds of environment variables, and flags.
-/

namespace LayeredConfig

/-- The name of one legacy file's source. Several of them are told apart by their paths. -/
def SourceSettings.legacyName (s : SourceSettings) (path : String) : String :=
  if s.legacyPaths.length = 1 then Layout.legacy.sourceName
  else Layout.legacy.sourceName ++ ":" ++ path

/-- A file of the chain. -/
def SourceSettings.file (s : SourceSettings) (w : World) (layout : Layout) (name path : String) :
    Source :=
  .file { name, path := w.expandHome path, layout, policy := s.policy }

/-- The files of the chain. -/
def SourceSettings.files (s : SourceSettings) (w : World) : List Source :=
  s.legacyPaths.map (fun path ↦ s.file w .legacy (s.legacyName path) path) ++
    [s.file w .nested Layout.nested.sourceName s.mainPath,
      s.file w .connectionsOnly Layout.connectionsOnly.sourceName s.connectionsPath]

/-- All sources of the chain. See `SPEC_FULL.md:122–124`, `default_chain`. -/
def SourceSettings.chain (s : SourceSettings) (w : World) (flags : Option Flags) : List Source :=
  let schemes := if s.readEnvironment then [Scheme.snowsql, .connectionScoped, .cli] else []
  s.files w ++ schemes.map (fun scheme ↦ .environment { scheme }) ++ (flags.map Source.flags).toList

end LayeredConfig
