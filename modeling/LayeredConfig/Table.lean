import LayeredConfig.Value
import LayeredConfig.Text.Split

/-!
# Tables by path

A dotted key names a path of segments through nested tables. Looking a path up, putting a value at
its end, narrowing a table to it, merging two tables and listing the leaves of one all follow the
same segments. The leaves of a table are its scalars, its lists and its empty tables.
-/

namespace LayeredConfig

/-- The segments of a dotted key, the first apart: there always is one, if only an empty one. -/
def segments (key : String) : String × List String :=
  let (first, others) := Text.cut '.' key.toList
  (String.ofList first, others.map String.ofList)

/-- Follow segments from a value. -/
def Value.descend : Value → List String → Option Value
  | v, [] => some v
  | .table t, s :: rest =>
    match Keyed.get? s t with
    | some v => v.descend rest
    | none => none
  | _, _ :: _ => none

namespace Table

/-- The value at the end of a path. -/
def at? (t : Table) (first : String) (rest : List String) : Option Value :=
  match Keyed.get? first t with
  | some v => v.descend rest
  | none => none

/-- Put a value at the end of a path. What stands in the way and is no table becomes one. -/
def put (t : Table) (first : String) (rest : List String) (v : Value) : Table :=
  match rest with
  | [] => Keyed.insert first v t
  | s :: rest =>
    let inner := match Keyed.get? first t with
      | some (.table inner) => inner
      | _ => []
    Keyed.insert first (.table (put inner s rest v)) t

/-- The part of a table that leads to the end of a path: one entry at each level, nothing if the
path leads nowhere. -/
def narrow (t : Table) (first : String) : List String → Table
  | [] =>
    match Keyed.get? first t with
    | some v => [(first, v)]
    | none => []
  | s :: rest =>
    match Keyed.get? first t with
    | some (.table inner) =>
      match narrow inner s rest with
      | [] => []
      | found => [(first, .table found)]
    | _ => []

/-- Narrow a table to a dotted key; without a key the whole table. See `SPEC_FULL.md:102`. -/
def select (t : Table) : Option String → Table
  | none => t
  | some key => t.narrow (segments key).1 (segments key).2

mutual

/-- Merge `new` into `old`, key by key; two tables under one key merge in turn, anything else is
replaced. See `SPEC_FULL.md:155`. -/
def deepMerge (old : List (String × Value)) : List (String × Value) → List (String × Value)
  | [] => old
  | (k, v) :: rest => deepMerge (Keyed.insert k (merged (Keyed.get? k old) v) old) rest

/-- What stands under a key once `new` is merged into what stood there. -/
def merged (old : Option Value) : Value → Value
  | .table new =>
    match old with
    | some (.table inner) => .table (deepMerge inner new)
    | _ => .table new
  | v => v

end

/-- The dotted key of an entry inside the table at `path`. -/
def joinKey (path key : String) : String :=
  if path.isEmpty then key else path ++ "." ++ key

mutual

/-- The leaves of a value that stands at `path`. -/
def valueLeaves (path : String) : Value → List (String × Value)
  | .table (e :: rest) => leaves path (e :: rest)
  | v => [(path, v)]

/-- The leaves of a table that stands at `path`, in key order at every level. -/
def leaves (path : String) : List (String × Value) → List (String × Value)
  | [] => []
  | (k, v) :: rest => valueLeaves (joinKey path k) v ++ leaves path rest

end

/-- The leaves under their dotted keys. Where two paths have one spelling the later leaf stays. -/
def flatten (t : Table) : Keyed Value := Keyed.ofList (leaves "" t)

/-- Add the entries of `defaults` whose keys are missing; the keys that were added come with the
table. See `SPEC_FULL.md:157`. -/
def fillMissing (t defaults : Table) : List String × Table :=
  let missing := defaults.filter fun e ↦ !Keyed.contains e.1 t
  (Keyed.keys missing, Keyed.overlay t missing)

end Table

end LayeredConfig
