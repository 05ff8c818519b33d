import LayeredConfig.Candidate

/-!
# Histories

The history of a key holds every candidate for it in the order of consultation, one for each source,
and after a pass which of them supplied the value.
-/

namespace LayeredConfig

/-- One candidate in a history. See `SPEC_FULL.md:63–65`, `ResolutionEntry`. -/
structure Entry where
  candidate : Candidate
  used : Bool := false
  overriddenBy : Option String := none

/-- The source of an entry. -/
def Entry.source (e : Entry) : String := e.candidate.source

/-- The value of an entry. -/
def Entry.value (e : Entry) : Value := e.candidate.value

/-- All candidates for one key. See `SPEC_FULL.md:66–68`, `ResolutionHistory`. -/
structure History where
  key : String
  entries : List Entry := []
  final : Option Value := none
  defaultUsed : Bool := false

namespace History

/-- Source name of the entry that a caller's default makes. -/
def defaultSource : String := "default"

/-- The sources that supplied a candidate. -/
def sources (h : History) : List String := h.entries.map Entry.source

/-- The values that were considered. -/
def values (h : History) : List Value := h.entries.map Entry.value

/-- The entry that supplied the final value. -/
def selected? (h : History) : Option Entry := h.entries.find? Entry.used

/-- The entries that did not. -/
def overridden (h : History) : List Entry := h.entries.filter fun e ↦ !e.used

/-- Add a candidate, unless its source has supplied one already. See `SPEC_FULL.md:64`. -/
def record (h : History) (c : Candidate) : History :=
  if h.sources.contains c.source then h
  else { h with entries := h.entries ++ [{ candidate := c }] }

/-- Note that a caller's default filled the key. It becomes an entry where there is no other.
See `SPEC_FULL.md:135`, `mark_default_used`. -/
def markDefault (h : History) (v : Value) : History :=
  { h with
    entries :=
      if h.entries.isEmpty then [{ candidate := Candidate.new h.key v defaultSource .overlay }]
      else h.entries
    defaultUsed := true }

/-- Mark the entry of a source as used and all others as overridden by it. -/
def mark (source : String) (e : Entry) : Entry :=
  if e.source == source then { e with used := true, overriddenBy := none }
  else { e with used := false, overriddenBy := some source }

/-- Select the entry of a source, if it has one. -/
def select? (h : History) (source : String) : Option History :=
  (h.entries.find? fun e ↦ e.source == source).map fun e ↦
    { h with entries := h.entries.map (mark source), final := some e.value }

/-- Close the history with the value that the key has in the result. The latest entry with that
value supplied it. See `SPEC_FULL.md:168–170`, Phase D. -/
def close (h : History) (v : Value) : History :=
  match h.entries.reverse.find? fun e ↦ e.value.same v with
  | some winner => (h.select? winner.source).getD h
  | none => { h with final := some v }

end History

end LayeredConfig
