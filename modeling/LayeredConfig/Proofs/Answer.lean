import LayeredConfig.Layers
import LayeredConfig.Proofs.DeepMerge

/-!
# Answers

What a source that did not fail supplied: a table, and the same table split into root keys and
connections. Looking a path up in the table and in its parts comes to the same.
-/

namespace LayeredConfig

open Keyed (Sorted get?)

/-- The tables of some records are records again. -/
theorem Table.eq_ofRecords {entries : Table} {records : Keyed Table}
    (h : Table.records entries = .ok records) : entries = Table.ofRecords records := by
  induction entries generalizing records with
  | nil =>
    cases h
    rfl
  | cons e rest ih =>
    obtain ⟨name, v⟩ := e
    cases hv : v.isTable with
    | false =>
      cases v with
      | table t => cases hv
      | _ => cases h
    | true =>
      obtain ⟨record, rfl⟩ := Value.isTable_iff.mp hv
      rw [Table.records] at h
      cases hr : Table.records rest with
      | error e =>
        rw [hr] at h
        cases h
      | ok rs =>
        rw [hr] at h
        cases h
        rw [ih hr]
        rfl

/-- Look-up among the tables of some records. -/
theorem Table.get?_ofRecords (records : Keyed Table) (name : String) :
    get? name (Table.ofRecords records) = (get? name records).map .table :=
  Keyed.get?_map name (fun _ record ↦ Value.table record) records

/-- The names of records ascend if the keys of their table do. -/
theorem Table.sorted_of_ofRecords {records : Keyed Table} (h : Sorted (Table.ofRecords records)) :
    Sorted records := by
  rw [Table.ofRecords, Keyed.mapValues, Sorted, List.pairwise_map] at h
  exact h

namespace Config

/-- What splitting a table yields: the other keys, and the records of the branch if there is one. -/
theorem ofNested_ok {t : Table} {c : Config} (h : ofNested t = .ok c) :
    c.root = Keyed.erase connectionsKey t ∧
      ((Keyed.get? connectionsKey t = none ∧ c.connections = []) ∨
        Keyed.get? connectionsKey t = some (.table (Table.ofRecords c.connections))) := by
  rw [ofNested] at h
  cases hb : Keyed.get? connectionsKey t with
  | none =>
    rw [hb] at h
    cases h
    exact ⟨rfl, Or.inl ⟨rfl, rfl⟩⟩
  | some v =>
    rw [hb] at h
    cases hv : v.isTable with
    | false =>
      cases v with
      | table t => cases hv
      | _ => cases h
    | true =>
      obtain ⟨entries, rfl⟩ := Value.isTable_iff.mp hv
      cases hr : Table.records entries with
      | error e =>
        simp only [hr] at h
        cases h
      | ok records =>
        simp only [hr] at h
        cases h
        exact ⟨rfl, Or.inr (by rw [Table.eq_ofRecords hr])⟩

end Config

/-- What a general parameter is. -/
theorem isGeneral_iff {key : String} {v : Value} :
    isGeneral (key, v) = true ↔ Parameter.isParameter key = true ∧ v.isTable = false := by
  rw [isGeneral, Bool.and_eq_true, Bool.not_eq_true']

/-- What a source that did not fail supplied. -/
structure Answer where
  report : Report
  data : Table
  config : Config
  split : Config.ofNested data = .ok config

/-- The answer in a report. A source that failed has none, and neither has one whose table cannot be
split. -/
def Report.answer? (r : Report) : Option Answer :=
  match r.outcome with
  | .error _ => none
  | .ok t =>
    match h : Config.ofNested t with
    | .ok c => some ⟨r, t, c, h⟩
    | .error _ => none

/-- A report is well formed if its table, where there is one, has ascending keys at every level and
can be split. -/
def Report.WellFormed (r : Report) : Prop :=
  ∀ t, r.outcome = .ok t → (Value.table t).Ordered ∧ ∃ c, Config.ofNested t = .ok c

instance (r : Report) : Decidable r.WellFormed :=
  match h : r.outcome with
  | .error e => .isTrue fun t ht ↦ by
    rw [h] at ht
    cases ht
  | .ok t =>
    match hc : Config.ofNested t with
    | .error e => .isFalse fun hw ↦ by
      obtain ⟨-, c, hc'⟩ := hw t h
      rw [hc] at hc'
      cases hc'
    | .ok c =>
      have only : ∀ t', r.outcome = .ok t' → t' = t := fun t' ht ↦
        Except.ok.inj (ht.symm.trans h)
      decidable_of_iff (Value.table t).Ordered
        ⟨fun ho t' ht ↦ by rw [only t' ht]; exact ⟨ho, c, hc⟩, fun hw ↦ (hw t h).1⟩

namespace Answer

/-- The answer has ascending keys at every level. -/
def Ordered (a : Answer) : Prop := (Value.table a.data).Ordered

/-- The record an answer has for a connection. -/
def record? (a : Answer) (name : String) : Option Table := get? name a.config.connections

/-- The record an answer has for a connection, as a value. -/
def recordValue? (a : Answer) (name : String) : Option Value := (a.record? name).map .table

/-- The value an answer has under a root key. -/
def root? (a : Answer) (key : String) : Option Value := get? key a.config.root

/-- The general parameter an answer has under a key. -/
def general? (a : Answer) (key : String) : Option Value :=
  (a.root? key).filter fun v ↦ isGeneral (key, v)

/-- Root keys are the keys of the table other than the branch of connections. -/
theorem root?_eq (a : Answer) (key : String) :
    a.root? key = if key = connectionsKey then none else get? key a.data := by
  rw [root?, (Config.ofNested_ok a.split).1, Keyed.get?_erase]
  simp only [eq_comm (a := connectionsKey)]

/-- Records are the tables of the branch of connections. -/
theorem recordValue?_eq (a : Answer) (name : String) :
    a.recordValue? name = a.data.at? connectionsKey [name] := by
  rw [Table.at?_eq, recordValue?, record?]
  rcases (Config.ofNested_ok a.split).2 with ⟨hb, hc⟩ | hb
  · rw [hb, hc]
    rfl
  · rw [hb, Option.bind_some, Value.descend_table, Table.get?_ofRecords]
    cases get? name a.config.connections <;> rfl

variable {a : Answer}

/-- A general parameter of an answer is a root value that is one. -/
theorem general?_eq_some_iff {key : String} {v : Value} :
    a.general? key = some v ↔ a.root? key = some v ∧ isGeneral (key, v) = true :=
  Option.filter_eq_some_iff

/-- Without a root key there is no general parameter. -/
theorem general?_eq_none {key : String} (h : a.root? key = none) : a.general? key = none := by
  rw [general?, h, Option.filter_none]

/-- What an ordered answer has under a root key is ordered. -/
theorem Ordered.root? (h : a.Ordered) {key : String} {v : Value} (hv : a.root? key = some v) :
    v.Ordered := by
  rw [root?_eq] at hv
  split at hv
  · cases hv
  · exact Value.Ordered.get? h hv

/-- The root keys of an ordered answer ascend. -/
theorem Ordered.sorted_root (h : a.Ordered) : Sorted a.config.root := by
  rw [(Config.ofNested_ok a.split).1]
  exact (Value.Ordered.sorted h).erase _

private theorem Ordered.ofRecords (h : a.Ordered) :
    (Value.table (Table.ofRecords a.config.connections)).Ordered := by
  rcases (Config.ofNested_ok a.split).2 with ⟨-, hc⟩ | hb
  · rw [hc]
    exact ⟨Keyed.sorted_nil, trivial⟩
  · exact Value.Ordered.get? h hb

/-- The names of the connections of an ordered answer ascend. -/
theorem Ordered.sorted_connections (h : a.Ordered) : Sorted a.config.connections :=
  Table.sorted_of_ofRecords h.ofRecords.sorted

/-- The records of an ordered answer are ordered. -/
theorem Ordered.record? (h : a.Ordered) {name : String} {record : Table}
    (hr : a.record? name = some record) : (Value.table record).Ordered := by
  apply Value.Ordered.get? h.ofRecords (k := name)
  rw [Table.get?_ofRecords]
  exact congrArg (Option.map Value.table) hr

end Answer

end LayeredConfig
