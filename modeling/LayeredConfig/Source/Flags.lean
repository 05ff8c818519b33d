import LayeredConfig.Table
import LayeredConfig.Text.Split

/-!
# Flags

Values from the command line. A flag is written `--name=value`, `--name value` or alone, which means
true; it stands alone if another flag follows or nothing does. Dashes inside a name become
underscores. Values that were converted keep the text they were given as.
-/

namespace LayeredConfig

/-- Values given as flags. See `SPEC_FULL.md:114`, `CliArgumentsSource`. -/
structure Flags where
  values : Table := []
  raw : Keyed String := []

namespace Flags

/-- Name of the source of flags. -/
def sourceName : String := "cli_arguments"

/-- The key of a flag. -/
def keyOf (name : List Char) : String :=
  String.ofList (name.map fun c ↦ if c = '-' then '_' else c)

/-- What follows the dashes of a flag; any other token is none. -/
def name? (token : String) : Option (List Char) := ['-', '-'].isPrefixOf? token.toList

/-- The assignments that tokens spell. A token that is no flag and follows none is passed over. -/
def assignments : List String → List (String × Value)
  | [] => []
  | token :: rest =>
    match name? token with
    | none => assignments rest
    | some flag =>
      match Text.cutOnce '=' flag, rest with
      | some (name, value), rest => (keyOf name, .string (String.ofList value)) :: assignments rest
      | none, [] => [(keyOf flag, .bool true)]
      | none, next :: rest =>
        match name? next with
        | none => (keyOf flag, .string next) :: assignments rest
        | some _ => (keyOf flag, .bool true) :: assignments (next :: rest)

/-- The flags among tokens; of several with one key the last counts. See `SPEC_FULL.md:114`,
`from_args`. -/
def parse (tokens : List String) : Flags := { values := Keyed.ofList (assignments tokens) }

/-- The flags of keys and values. Null stands for a flag that was not given. -/
def ofPairs (pairs : List (String × Value)) : Flags :=
  { values := (Keyed.ofList pairs).filter fun e ↦ e.2.kind != .null }

/-- Keep the text that a value was converted from. -/
def withRaw (f : Flags) (key text : String) : Flags := { f with raw := Keyed.insert key text f.raw }

/-- Whether no flag was given. -/
def isEmpty (f : Flags) : Bool := f.values.isEmpty

end Flags

end LayeredConfig
