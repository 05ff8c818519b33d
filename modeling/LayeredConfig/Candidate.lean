import LayeredConfig.DebugText
import LayeredConfig.Parameter

/-!
# Candidates

A candidate is one value as one source reported it: the dotted key, the value, the text it was made
from, and the source. Sources come in two kinds, which differ in how their data is merged.
-/

namespace LayeredConfig

/-- How a source's data is merged: files define whole connections, overlays single fields.
See `SPEC_FULL.md:93`, `source_kind`. -/
inductive SourceKind where
  | file
  | overlay
  deriving DecidableEq, Repr

/-- A value as a source reported it. See `SPEC_FULL.md:58–60`, `ConfigValue`. -/
structure Candidate where
  key : String
  value : Value
  raw : Option String
  source : String
  kind : SourceKind

namespace Candidate

/-- The text of a value that no source has converted. -/
def rawOf : Value → Option String
  | .null => none
  | .string s => some s
  | v => some v.compact

/-- A candidate with the text of its value, or with the text a source converted it from. -/
def new (key : String) (value : Value) (source : String) (kind : SourceKind)
    (converted : Option String := none) : Candidate :=
  { key, value, raw := converted <|> rawOf value, source, kind }

/-- The same candidate under another key. -/
def rekeyed (c : Candidate) (key : String) : Candidate := { c with key }

/-- Whether its value must not be shown. -/
def isSensitive (c : Candidate) : Bool := Parameter.isSensitive c.key

/-- Equality of candidates. -/
def same (a b : Candidate) : Bool :=
  a.key == b.key && a.value.same b.value && a.raw == b.raw && a.source == b.source && a.kind == b.kind

/-- The name of a kind in debugging text. -/
def kindText : SourceKind → String
  | .file => "File"
  | .overlay => "Overlay"

/-- Debugging text; nothing of a secret is in it. See `SPEC_FULL.md:59–60`. -/
def debug (c : Candidate) : String :=
  let hidden := DebugText.quote "[REDACTED]"
  DebugText.record "ConfigValue"
    [("key", DebugText.quote c.key),
      ("value", if c.isSensitive then hidden else c.value.debug),
      ("raw_value", if c.isSensitive then hidden else DebugText.optional DebugText.quote c.raw),
      ("source_name", DebugText.quote c.source),
      ("source_kind", kindText c.kind)]

end Candidate

/-- Severity of a diagnostic, ascending. -/
inductive Level where
  | info | warning | error
  deriving DecidableEq, Repr

/-- A source's report about itself. See `SPEC_FULL.md:61–62`, `SourceDiagnostic`. -/
structure Diagnostic where
  source : String
  level : Level
  message : String
  deriving DecidableEq, Repr

end LayeredConfig
