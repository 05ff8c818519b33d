import LayeredConfig.History.Tracker
import LayeredConfig.Secret.Fingerprint

/-!
# Exported histories

The document that an audit gets: the summary and all histories. With redaction, the values under the
name of a secret are replaced by fingerprints. Records keep the order of their fields.
-/

namespace LayeredConfig

/-- The value to write for a key. See `SPEC_FULL.md:206–208`. -/
def History.exported (redact : Bool) (key : String) (v : Value) : Value :=
  if redact && Parameter.isSensitive key then .string (Secret.fingerprint v) else v

/-- A number of things. -/
def Value.count (n : Nat) : Value := .int n

/-- Something that may be absent. -/
def Value.optional : Option Value → Value
  | none => .null
  | some v => v

/-- One entry and its place in the order of consultation. -/
def Entry.document (redact : Bool) (key : String) (priority : Nat) (e : Entry) : Value :=
  .table
    [("source", .string e.source), ("value", History.exported redact key e.value),
      ("priority", .count priority), ("was_used", .bool e.used),
      ("overridden_by", .optional (e.overriddenBy.map .string))]

/-- One history. -/
def History.document (redact : Bool) (h : History) : Value :=
  .table
    [("key", .string h.key),
      ("final_value", .optional (h.final.map (History.exported redact h.key))),
      ("default_used", .bool h.defaultUsed),
      ("sources_consulted", .array (h.sources.map .string)),
      ("entries", .array (h.entries.zipIdx.map fun e ↦ e.1.document redact h.key e.2))]

namespace Tracker

/-- The totals. -/
def Summary.document (s : Summary) : Value :=
  .table
    [("total_keys_resolved", .count s.resolved), ("keys_with_overrides", .count s.overridden),
      ("keys_using_defaults", .count s.defaulted),
      ("source_wins", .table (Keyed.mapValues (fun _ n ↦ .count n) s.wins))]

/-- The whole document. See `SPEC_FULL.md:203–206`, `export_history`. -/
def document (t : Tracker) (redact : Bool) : Value :=
  .table
    [("summary", t.summary.document),
      ("histories", .table (Keyed.mapValues (fun _ h ↦ h.document redact) t.histories))]

/-- The text of the document. -/
def documentText (t : Tracker) (redact : Bool) : String := (t.document redact).pretty

end Tracker

end LayeredConfig
