import LayeredConfig.Event

/-!
# Layers

The state in which a pass merges the tables of its sources. A file defines whole connections and
whole root keys: what it names replaces what was there. An overlay supplies fields: its tables merge
with those that are there, and its free-standing parameters, the general ones, go into every
connection that has no value of its own for them. When all tables are in, general parameters also
fill the connections that came after them, and leave the root unless an overlay put them there in
sight of a connection.
-/

namespace LayeredConfig

/-- A general parameter: a connection parameter at the root that is no table.
See `SPEC_FULL.md:153–154`, Phase B. -/
def isGeneral (e : String × Value) : Bool := Parameter.isParameter e.1 && !e.2.isTable

/-- The general parameters of a root, and all else. See `SPEC_FULL.md:153–154`, Phase B. -/
def Table.splitGeneral (root : Table) : Table × Table := root.partition isGeneral

/-- The merge so far. -/
structure Layers where
  config : Config := {}
  /-- The latest general parameter under each key. -/
  general : Keyed Candidate := []
  /-- General parameters that stay at the root. -/
  flatView : List String := []
  /-- Connection and key of the fields that hold a general value. -/
  filled : List (String × String) := []

namespace Layers

/-- Remember the general parameters of a report. -/
def note (general : Keyed Candidate) (candidates : List Candidate) : Keyed Candidate :=
  Keyed.overlay general (candidates.map fun c ↦ (c.key, c))

/-- The general parameters of a root as candidates of a report. -/
def candidates (r : Report) (root : Table) : List Candidate :=
  (root.filter isGeneral).map fun e ↦ r.candidate e.1 e.2

/-- Add the table of a file. See `SPEC_FULL.md:148–150`, Phase A, and `SPEC_FULL.md:76`,
invariant 2. -/
def addFile (l : Layers) (r : Report) (c : Config) : Layers :=
  { l with
    config :=
      { root := Keyed.overlay l.config.root c.root
        connections := Keyed.overlay l.config.connections c.connections }
    general := note l.general (candidates r c.root) }

/-- Merge a record into the connection of that name, which may be new. See `SPEC_FULL.md:155–156`,
Phase B. -/
def mergeRecord (connections : Keyed Table) (e : String × Table) : Keyed Table :=
  Keyed.insert e.1 (Table.deepMerge ((Keyed.get? e.1 connections).getD []) e.2) connections

/-- Whether records have a field. -/
def hasField (records : Keyed Table) (field : String × String) : Bool :=
  match Keyed.get? field.1 records with
  | some record => Keyed.contains field.2 record
  | none => false

/-- The general parameters that go into a connection: those whose field is free or holds an earlier
general value. -/
def applicable (filled : List (String × String)) (connection : String) (record : Table)
    (general : List Candidate) : List Candidate :=
  general.filter fun c ↦ !Keyed.contains c.key record || filled.contains (connection, c.key)

/-- Put general parameters into a record. See `SPEC_FULL.md:156–158`, Phase B, and
`SPEC_FULL.md:77–79`, invariant 3. -/
def fill (record : Table) (general : List Candidate) : Table :=
  Keyed.overlay record (general.map fun c ↦ (c.key, c.value))

/-- The event of a general parameter that became a field of a connection. -/
def broadcastEvent (connection : String) (c : Candidate) : Event :=
  .broadcast connection (c.rekeyed (connectionKey connection c.key))

/-- Add the table of an overlay. The events tell which fields general parameters went into.
See `SPEC_FULL.md:153–159`, Phase B. -/
def addOverlay (l : Layers) (r : Report) (c : Config) : Layers × List Event :=
  let (general, other) := Table.splitGeneral c.root
  let offered := candidates r general
  let connections := c.connections.foldl mergeRecord l.config.connections
  let filled := l.filled.filter fun field ↦ !hasField c.connections field
  let taken := connections.map fun e ↦ (e.1, applicable filled e.1 e.2 offered)
  ({ config :=
       { root := Table.deepMerge (Table.deepMerge l.config.root other) general
         connections := connections.map fun e ↦
           (e.1, fill e.2 (applicable filled e.1 e.2 offered)) }
     general := note l.general offered
     flatView := if connections.isEmpty then l.flatView else l.flatView ++ Keyed.keys general
     filled := filled ++ taken.flatMap fun e ↦ e.2.map fun c ↦ (e.1, c.key) },
    taken.flatMap fun e ↦ e.2.map (broadcastEvent e.1))

/-- Add a report's table in the way of its kind. -/
def add (l : Layers) (r : Report) (c : Config) : Layers × List Event :=
  match r.kind with
  | .file => (l.addFile r c, [])
  | .overlay => l.addOverlay r c

/-- Whether the root still holds a general parameter's value. -/
def stands (root : Table) (e : String × Candidate) : Bool :=
  match Keyed.get? e.1 root with
  | some v => v.same e.2.value
  | none => false

/-- Let the general parameters that still stand at the root fill every connection. Those that are
not in the flat view leave the root. Without connections nothing happens.
See `SPEC_FULL.md:160–161`, Phase B. -/
def settle (l : Layers) : Config × List Event :=
  if l.config.connections.isEmpty then (l.config, [])
  else
    let general := l.general.filter (stands l.config.root)
    let defaults : Table := Keyed.mapValues (fun _ c ↦ c.value) general
    let settled := l.config.connections.map fun e ↦ (e.1, Table.fillMissing e.2 defaults)
    ({ root := l.config.root.filter fun e ↦
         !Keyed.contains e.1 general || l.flatView.contains e.1
       connections := settled.map fun e ↦ (e.1, e.2.2) },
      settled.flatMap fun e ↦ e.2.1.filterMap fun key ↦
        (Keyed.get? key general).map (broadcastEvent e.1))

end Layers

end LayeredConfig
