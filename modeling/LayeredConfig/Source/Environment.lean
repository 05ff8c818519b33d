import LayeredConfig.Config

/-!
# Environment variables

Three naming schemes, each with a source of its own. A scheme says under which path the value of a
variable is found; of several variables for one path the last in byte order counts.
-/

namespace LayeredConfig

/-- A naming scheme. See `SPEC_FULL.md:111–113`. -/
inductive Scheme where
  /-- `SNOWSQL_<PARAMETER>`, older names included. -/
  | snowsql
  /-- `SNOWFLAKE_CONNECTIONS_<NAME>_<PARAMETER>`. -/
  | connectionScoped
  /-- `SNOWFLAKE_<PARAMETER>`, and the name of the default connection. -/
  | cli
  deriving DecidableEq, Repr

namespace Scheme

/-- Name of the source of a scheme. -/
def sourceName : Scheme → String
  | .snowsql => "snowsql_env"
  | .connectionScoped => "connection_specific_env"
  | .cli => "cli_env"

/-- The start of variables that belong to one connection. -/
def connectionsLead : String := "SNOWFLAKE_CONNECTIONS_"

/-- The variable with the name of the default connection. -/
def defaultConnectionVariable : String := "SNOWFLAKE_DEFAULT_CONNECTION_NAME"

/-- What stands before an underscore and a parameter, if it is a name. -/
def connectionBefore? (lower : List Char) (parameter : String) : Option (List Char) :=
  match Text.before? ('_' :: parameter.toList) lower with
  | some (c :: name) => some (c :: name)
  | _ => none

/-- Split `<NAME>_<PARAMETER>` at the longest parameter that leaves a name.
See `SPEC_FULL.md:112`. -/
def splitConnection? (rest : String) : Option (String × String) :=
  let lower := (Text.lowerAscii rest).toList
  let found := Parameter.all.filterMap fun parameter ↦
    (connectionBefore? lower parameter).map fun name ↦ (String.ofList name, parameter)
  found.foldl longer none
where
  longer (best : Option (String × String)) (e : String × String) : Option (String × String) :=
    match best with
    | none => some e
    | some b => if b.2.length ≤ e.2.length then some e else some b

/-- A key that is a connection parameter, as the path to it. -/
def parameterPath? (key : String) : Option (String × List String) :=
  if Parameter.isParameter key then some (key, []) else none

/-- The path that a variable's value is found under, if the scheme takes the variable.
See `SPEC_FULL.md:111–113`. -/
def path? (s : Scheme) (name : String) : Option (String × List String) :=
  match s with
  | .snowsql =>
    (Text.after? "SNOWSQL_" name).bind fun rest ↦ parameterPath? (Parameter.current rest)
  | .connectionScoped =>
    (Text.after? connectionsLead name).bind fun rest ↦
      (splitConnection? rest).map fun (connection, parameter) ↦
        (connectionsKey, [connection, parameter])
  | .cli =>
    if name = defaultConnectionVariable then some ("default_connection_name", [])
    else if (Text.after? connectionsLead name).isSome then none
    else
      (Text.after? "SNOWFLAKE_" name).bind fun rest ↦ parameterPath? (Text.lowerAscii rest)

/-- Put the value of a variable under its path. -/
def take (s : Scheme) (t : Table) (binding : String × String) : Table :=
  match s.path? binding.1 with
  | some (first, rest) => Table.put t first rest (.string binding.2)
  | none => t

/-- Order of variables: by name, then by value. -/
def precedes (a b : String × String) : Bool := a.1 < b.1 || (a.1 == b.1 && a.2 ≤ b.2)

/-- The table of some variables, in any order. -/
def tableOf (s : Scheme) (bindings : List (String × String)) : Table :=
  (bindings.mergeSort precedes).foldl s.take []

end Scheme

/-- The variables of one scheme, fixed ones or those of the surroundings.
See `SPEC_FULL.md:111–113`, `EnvironmentSource`. -/
structure EnvironmentSource where
  scheme : Scheme
  bindings : Option (List (String × String)) := none

end LayeredConfig
