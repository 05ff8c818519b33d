import LayeredConfig.Event
import LayeredConfig.History

/-!
# The tracker

Histories by dotted key. A tracker follows the events of a pass: discoveries and broadcasts add
candidates, a made-up connection takes over the histories of its parameters, and the final
configuration decides which candidates were used.
-/

namespace LayeredConfig

/-- Histories by key. See `SPEC_FULL.md:45–47`, `ResolutionHistoryTracker`. -/
structure Tracker where
  histories : Keyed History := []

namespace Tracker

/-- Change the history of a key; a key without one gets a new history. -/
def update (t : Tracker) (key : String) (f : History → History) : Tracker :=
  ⟨Keyed.insert key (f ((Keyed.get? key t.histories).getD { key })) t.histories⟩

/-- Record a candidate under its key. See `SPEC_FULL.md:176`, `record_discovery`. -/
def record (t : Tracker) (c : Candidate) : Tracker := t.update c.key fun h ↦ h.record c

/-- Record every leaf of a table. See `SPEC_FULL.md:176`, `record_nested_discovery`. -/
def recordTable (t : Tracker) (data : Table) (source : String) (kind : SourceKind) : Tracker :=
  (Table.flatten data).foldl (fun t e ↦ t.record (Candidate.new e.1 e.2 source kind)) t

/-- Note that a caller's default filled a key. See `SPEC_FULL.md:176`, `mark_default_used`. -/
def markDefault (t : Tracker) (key : String) (v : Value) : Tracker :=
  t.update key fun h ↦ h.markDefault v

/-- Select a source's entry for a key; nothing if there is none. See `SPEC_FULL.md:176`,
`mark_selected`. -/
def select? (t : Tracker) (key source : String) : Option Tracker := do
  let h ← Keyed.get? key t.histories
  let h ← h.select? source
  return ⟨Keyed.insert key h t.histories⟩

/-- Copy the candidates of one root key to the same key of a connection. -/
def replicateKey (connection : String) (t : Tracker) (key : String) : Tracker :=
  match Keyed.get? key t.histories with
  | none => t
  | some h =>
    h.entries.foldl (fun t e ↦ t.record (e.candidate.rekeyed (connectionKey connection key))) t

/-- Copy the candidates of root keys to a connection. See `SPEC_FULL.md:177`,
`replicate_root_level_discoveries_to_connection`. -/
def replicate (t : Tracker) (keys : List String) (connection : String) : Tracker :=
  keys.foldl (replicateKey connection) t

/-- Close the history of one leaf of the result, if the key has one. -/
def closeLeaf (t : Tracker) (leaf : String × Value) : Tracker :=
  match Keyed.get? leaf.1 t.histories with
  | none => t
  | some h => ⟨Keyed.insert leaf.1 (h.close leaf.2) t.histories⟩

/-- Close the histories of all leaves of the result. See `SPEC_FULL.md:168–170`, Phase D. -/
def finalize (t : Tracker) (c : Config) : Tracker := c.flatten.foldl closeLeaf t

/-- Follow one event. See `SPEC_FULL.md:189–191`. -/
def observe (t : Tracker) : Event → Tracker
  | .reset => {}
  | .discovered c => t.record c
  | .broadcast _ c => t.record c
  | .synthesized connection keys => t.replicate keys connection
  | .defaultUsed key v => t.markDefault key v
  | .finalized c => t.finalize c
  | .received .. | .sourceFailed .. => t

/-- The histories under keys that end in a dot and the given key. -/
def qualified (t : Tracker) (key : String) : List History :=
  (t.histories.filter fun e ↦ ('.' :: key.toList).isSuffixOf e.1.toList).map Prod.snd

/-- The history of a key. A bare key also finds a qualified one: the first with a used entry, or
else the first. See `SPEC_FULL.md:140–141`, `get_resolution_history`. -/
def get? (t : Tracker) (key : String) : Option History :=
  match Keyed.get? key t.histories with
  | some h => some h
  | none =>
    if key.toList.contains '.' then none
    else
      let found := t.qualified key
      (found.find? fun h ↦ h.selected?.isSome) <|> found.head?

/-- Totals over all histories. -/
structure Summary where
  resolved : Nat := 0
  overridden : Nat := 0
  defaulted : Nat := 0
  wins : Keyed Nat := []

/-- Count one more history. -/
def Summary.count (s : Summary) (h : History) : Summary :=
  { resolved := s.resolved + h.final.isSome.toNat
    overridden := s.overridden + (h.entries.length > 1 : Bool).toNat
    defaulted := s.defaulted + h.defaultUsed.toNat
    wins :=
      match h.selected? with
      | some e => Keyed.insert e.source ((Keyed.get? e.source s.wins).getD 0 + 1) s.wins
      | none => s.wins }

/-- The summary of all histories. See `SPEC_FULL.md:177–179`, `get_summary`. -/
def summary (t : Tracker) : Summary :=
  t.histories.foldl (fun s e ↦ s.count e.2) {}

end Tracker

end LayeredConfig
