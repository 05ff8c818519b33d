import LayeredConfig.Error
import LayeredConfig.Json
import LayeredConfig.Parameter
import LayeredConfig.Table

/-!
# Configurations

A configuration has root keys and named connections. Its nested form is one table with the
connections under the key `connections`; `ofNested` and `toNested` go between the two. A dotted key
is read through the nested form: `valueAt?` finds what the nested form holds there, and `set` puts a
value there, but only a table may stand where a connection is named.
-/

namespace LayeredConfig

/-- Root keys and named connections. See `SPEC_FULL.md:69–72`, `ResolvedConfig`. -/
structure Config where
  root : Table := []
  connections : Keyed Table := []

/-- The key of the connections in nested form. -/
def connectionsKey : String := "connections"

/-- The dotted key of a connection's parameter, or of the connection itself. -/
def connectionKey (connection parameter : String) : String :=
  if parameter.isEmpty then connectionsKey ++ "." ++ connection
  else connectionsKey ++ "." ++ connection ++ "." ++ parameter

/-- The records of a table of tables, or the first entry that is no table. -/
def Table.records : List (String × Value) → Except (String × Kind) (Keyed Table)
  | [] => .ok []
  | (name, .table record) :: rest =>
    match Table.records rest with
    | .ok records => .ok ((name, record) :: records)
    | .error e => .error e
  | (name, v) :: _ => .error (name, v.kind)

/-- The table of tables of some records. -/
def Table.ofRecords (records : Keyed Table) : Table :=
  Keyed.mapValues (fun _ record ↦ .table record) records

namespace Config

/-- The configuration with nothing in it. -/
def empty : Config := {}

/-- Split a nested table into root keys and connections. See `SPEC_FULL.md:71`, `from_nested`. -/
def ofNested (t : Table) : Except Malformed Config :=
  match Keyed.get? connectionsKey t with
  | none => .ok { root := Keyed.erase connectionsKey t }
  | some (.table entries) =>
    match Table.records entries with
    | .ok records => .ok { root := Keyed.erase connectionsKey t, connections := records }
    | .error (name, found) => .error (.connection name found)
  | some v => .error (.branch v.kind)

/-- The nested form. A configuration without connections has no `connections` branch.
See `SPEC_FULL.md:71`, `to_nested`. -/
def toNested (c : Config) : Table :=
  if c.connections.isEmpty then c.root
  else Keyed.insert connectionsKey (.table (Table.ofRecords c.connections)) c.root

/-- The leaves of the root keys and then of each connection, under their dotted keys. -/
def leaves (c : Config) : List (String × Value) :=
  Table.leaves "" c.root ++
    c.connections.flatMap fun e ↦ Table.leaves (connectionKey e.1 "") e.2

/-- All leaves by dotted key. See `SPEC_FULL.md:70–71`, `flatten`. -/
def flatten (c : Config) : Keyed Value := Keyed.ofList c.leaves

/-- What stands at a path; connections as such are no values here. See `SPEC_FULL.md:71`, `get`. -/
def get? (c : Config) (key : String) : Option Value :=
  match segments key with
  | ("connections", name :: param :: rest) =>
    match Keyed.get? name c.connections with
    | some record => Table.at? record param rest
    | none => none
  | ("connections", [_]) => none
  | (first, rest) => Table.at? c.root first rest

/-- What stands at a path, connections included. -/
def valueAt? (c : Config) (key : String) : Option Value :=
  match segments key with
  | ("connections", []) => Keyed.get? connectionsKey c.toNested
  | ("connections", [name]) => (Keyed.get? name c.connections).map .table
  | _ => c.get? key

/-- Place a value at a path, with tables on the way to it. A path that names connections replaces
them and takes only tables. See `SPEC_FULL.md:134–135`, the default placed by `resolve`. -/
def set (c : Config) (key : String) (v : Value) : Except Misplaced Config :=
  match segments key with
  | ("connections", []) =>
    match v with
    | .table entries =>
      match Table.records entries with
      | .ok records => .ok { c with connections := Keyed.overlay c.connections records }
      | .error (name, found) => .error (.notTable (connectionKey name "") found)
    | v => .error (.notTable key v.kind)
  | ("connections", [name]) =>
    match v with
    | .table record => .ok { c with connections := Keyed.insert name record c.connections }
    | v => .error (.notTable key v.kind)
  | ("connections", name :: param :: rest) =>
    let record := (Keyed.get? name c.connections).getD []
    let record := Table.put record param rest v
    .ok { c with connections := Keyed.insert name record c.connections }
  | (first, rest) => .ok { c with root := Table.put c.root first rest v }

/-- What a caller finds under a key: a bare parameter is also looked for in the default
connection. -/
def lookup (c : Config) (key : String) : Option Value :=
  match c.valueAt? key, segments key with
  | some v, _ => some v
  | none, (_, []) => c.get? (connectionKey Parameter.defaultConnection key)
  | none, _ => none

/-- The parameters of a connection. See `SPEC_FULL.md:72`, `connection`. -/
def connection? (c : Config) (name : String) : Option Table := Keyed.get? name c.connections

/-- The parameters of a connection that has to be there. See `SPEC_FULL.md:72`,
`require_connection`. -/
def requireConnection (c : Config) (name : String) : Except Error Table :=
  match c.connection? name with
  | some record => .ok record
  | none => .error (.missingConnection name)

/-- Neither root keys nor connections. -/
def isEmpty (c : Config) : Bool := c.root.isEmpty && c.connections.isEmpty

/-- Whether a root entry would move into a default connection. See `SPEC_FULL.md:163–165`,
Phase C. -/
def movesToDefault (e : String × Value) : Bool := Parameter.isEligible e.1 && !e.2.isTable

/-- Without any connection, make one up from the free-standing parameters. The keys that moved come
with the configuration. See `SPEC_FULL.md:163–166`, Phase C, and `SPEC_FULL.md:80–82`,
invariant 4. -/
def synthesize (c : Config) : List String × Config :=
  let moved := c.root.filter movesToDefault
  if !c.connections.isEmpty || moved.isEmpty then ([], c)
  else
    (Keyed.keys moved,
      { root := c.root.filter fun e ↦ !movesToDefault e
        connections := [(Parameter.defaultConnection, moved)] })

/-- One line of JSON: the root keys, then the connections if there are any. -/
def serialize (c : Config) : String :=
  let branch := if c.connections.isEmpty then []
    else [(connectionsKey, Value.table (Table.ofRecords c.connections))]
  (Value.table (c.root ++ branch)).compact

end Config

end LayeredConfig
