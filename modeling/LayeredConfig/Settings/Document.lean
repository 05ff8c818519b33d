import LayeredConfig.Settings
import LayeredConfig.Toml.Reader

/-!
# Settings as a document

The settings file has three sections, each a table by field name or a list of fields in their order.
Anything that is missing has its default; anything else in the file is passed over. A value of a kind
that the field does not take is an error.
-/

namespace LayeredConfig.Settings

/-- Refuse a value. -/
def wrong {α : Type} (field wanted : String) : Except SyntaxRule α := .error (.wrongType field wanted)

/-- Read a text. -/
def asText (field : String) : Value → Except SyntaxRule String
  | .string s => .ok s
  | _ => wrong field "a string"

/-- Read a flag. -/
def asFlag (field : String) : Value → Except SyntaxRule Bool
  | .bool b => .ok b
  | _ => wrong field "a boolean"

/-- Read a list of texts. -/
def asTexts (field : String) : Value → Except SyntaxRule (List String)
  | .array vs => vs.mapM (asText field)
  | _ => wrong field "a list of strings"

/-- Nothing at all: what may stand beside a word in place of the word alone. -/
def isEmpty : Value → Bool
  | .array [] | .table [] => true
  | _ => false

/-- Read a policy: a word, or a table with the word as its only key and nothing under it. -/
def asPolicy (field : String) (v : Value) : Except SyntaxRule Policy :=
  let word := match v with
    | .string s => some s
    | .table [(s, v)] => if isEmpty v then some s else none
    | _ => none
  match word.bind Policy.ofName? with
  | some p => .ok p
  | none => wrong field "one of ignore, warn, skip"

/-- The fields of a section, by name or by place. -/
def fieldOf (names : List String) (v : Value) (name : String) : Except SyntaxRule (Option Value) :=
  match v with
  | .table t => .ok (Keyed.get? name t)
  | .array vs => .ok (vs[names.idxOf name]?)
  | _ => wrong name "in a table"

/-- Read a field of a section that may be missing. -/
def readField {α : Type} (names : List String) (v : Value) (name : String)
    (read : String → Value → Except SyntaxRule α) (default : α) : Except SyntaxRule α := do
  match ← fieldOf names v name with
  | some v => read name v
  | none => return default

/-- Fields of the section on sources, in order. -/
def sourceFields : List String :=
  ["legacy_config_paths", "config_toml_path", "connections_toml_path", "environment_enabled",
    "permission_policy"]

/-- Read the section on sources. -/
def sourceSection (v : Value) : Except SyntaxRule SourceSettings := do
  let d : SourceSettings := {}
  return {
    legacyPaths := ← readField sourceFields v "legacy_config_paths" asTexts d.legacyPaths
    mainPath := ← readField sourceFields v "config_toml_path" asText d.mainPath
    connectionsPath := ← readField sourceFields v "connections_toml_path" asText d.connectionsPath
    readEnvironment := ← readField sourceFields v "environment_enabled" asFlag d.readEnvironment
    policy := ← readField sourceFields v "permission_policy" asPolicy d.policy }

/-- Fields of the section on histories, in order. -/
def historyFields : List String := ["enabled", "redact_exports"]

/-- Read the section on histories. -/
def historySection (v : Value) : Except SyntaxRule HistorySettings := do
  let d : HistorySettings := {}
  return {
    enabled := ← readField historyFields v "enabled" asFlag d.enabled
    redactExports := ← readField historyFields v "redact_exports" asFlag d.redactExports }

/-- Fields of the section on logging, in order. -/
def logFields : List String := ["local_enabled", "local_path", "local_rotation"]

/-- Read the section on logging. -/
def logSection (v : Value) : Except SyntaxRule LogSettings := do
  let d : LogSettings := {}
  return {
    enabled := ← readField logFields v "local_enabled" asFlag d.enabled
    path := ← readField logFields v "local_path" asText d.path
    rotation := ← readField logFields v "local_rotation" asText d.rotation }

/-- Read all sections. -/
def ofTable (t : Table) : Except SyntaxRule Settings := do
  let part {α : Type} (name : String) (read : Value → Except SyntaxRule α) (default : α) :
      Except SyntaxRule α :=
    match Keyed.get? name t with
    | some v => read v
    | none => .ok default
  return {
    sources := ← part "sources" sourceSection {}
    history := ← part "history" historySection {}
    logging := ← part "logging" logSection {} }

/-- Read a settings text. -/
def ofText (text : String) : Except SyntaxError Settings :=
  match Toml.readPlain text with
  | .error e => .error e
  | .ok t =>
    match ofTable t with
    | .error rule => .error ⟨1, rule⟩
    | .ok s => .ok s

end LayeredConfig.Settings
