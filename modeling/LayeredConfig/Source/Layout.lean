import LayeredConfig.Config
import LayeredConfig.Ini.Sections
import LayeredConfig.Toml.Reader

/-!
# File layouts

Where a file keeps its connections. In the nested layout they stand where a configuration has them;
in a file of connections every table is one; in the legacy layout each has a section, parameters have
older names, and what stands in the section of all connections belongs to the default one.
-/

namespace LayeredConfig

/-- How a file is written and where its connections are. See `SPEC_FULL.md:108–110`. -/
inductive Layout where
  | legacy
  | nested
  | connectionsOnly
  deriving DecidableEq, Repr

namespace Layout

/-- Tables of a connections file become connections, all else stays at the root.
See `SPEC_FULL.md:109`. -/
def gather (t : Table) : Table :=
  let connections := t.filter fun e ↦ e.2.isTable
  let root := t.filter fun e ↦ !e.2.isTable
  if connections.isEmpty then root else Keyed.insert connectionsKey (.table connections) root

/-- Put a parameter into a record under the name in use now. -/
def putParameter (record : Table) (e : String × Value) : Table :=
  Keyed.insert (Parameter.current e.1) e.2 record

/-- Change the record of a connection, which may be new. -/
def changeRecord (name : String) (f : Table → Table) (records : Keyed Table) : Keyed Table :=
  Keyed.insert name (f ((Keyed.get? name records).getD [])) records

/-- Add parameters to a connection. -/
def addParameters (name : String) (parameters : Table) (records : Keyed Table) : Keyed Table :=
  changeRecord name (fun record ↦ parameters.foldl putParameter record) records

/-- Add one entry of the section of all connections: a table is a connection of its own, anything
else a parameter of the default one. See `SPEC_FULL.md:110`. -/
def addEntry (records : Keyed Table) (e : String × Value) : Keyed Table :=
  match e.2 with
  | .table parameters => addParameters e.1 parameters records
  | v => changeRecord Parameter.defaultConnection (putParameter · (e.1, v)) records

/-- What a legacy file holds: connections, and the variables they share if it has a section for them. -/
structure Legacy where
  connections : Keyed Table := []
  shared : Option Table := none

/-- Add one section. Sections with other names, and entries in front of the first section, count for
nothing. -/
def Legacy.add (l : Legacy) (e : String × Value) : Legacy :=
  match e.2 with
  | .table entries =>
    let name := Text.lowerAscii e.1
    if name = connectionsKey then { l with connections := entries.foldl addEntry l.connections }
    else if name = "variables" then { l with shared := some entries }
    else
      match Text.after? (connectionsKey ++ ".") name with
      | some name => { l with connections := addParameters name entries l.connections }
      | none => l
  | _ => l

/-- A legacy file in nested form. See `SPEC_FULL.md:110`, `LegacyIniSource`. -/
def ofLegacy (sections : Table) : Table :=
  let l := sections.foldl Legacy.add {}
  let root : Table := match l.shared with
    | some shared => [("variables", .table shared)]
    | none => []
  if l.connections.isEmpty then root
  else Keyed.insert connectionsKey (.table (Table.ofRecords l.connections)) root

/-- Read a file in nested form. -/
def read (layout : Layout) (text : String) : Except Fault Table :=
  match layout with
  | .legacy => (Ini.readTable text).mapError .iniSyntax |>.map ofLegacy
  | .nested => (Toml.read text).mapError .tomlSyntax
  | .connectionsOnly => (Toml.read text).mapError .tomlSyntax |>.map gather

/-- Name of the source of a file that is given no other. -/
def sourceName : Layout → String
  | .legacy => "snowsql_config"
  | .nested => "cli_config_toml"
  | .connectionsOnly => "connections_toml"

end Layout

end LayeredConfig
