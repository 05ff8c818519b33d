import LayeredConfig.Proofs.Refusal

/-!
# Placing values

To place a value in a configuration is to put it at the end of a path through its nested form. It is
found there afterwards, and nothing changes at any path that parts from this one. A value that cannot
be placed leaves the configuration as it was, also where connections are written one after the other.
-/

namespace LayeredConfig

open Keyed (Sorted)

private theorem Keyed.insert_ne_nil {α : Type} (k : String) (a : α) (m : Keyed α) :
    Keyed.insert k a m ≠ [] := by
  intro h
  have hg := Keyed.get?_insert_self k a m
  rw [h] at hg
  cases hg

/-! ### Paths through tables -/

namespace Table

/-- Only what stands under the first key of a path changes when a value is put at its end. -/
theorem get?_put_of_ne {first key : String} (h : first ≠ key) (t : Table) (rest : List String)
    (v : Value) : Keyed.get? key (t.put first rest v) = Keyed.get? key t := by
  cases rest <;> simp [put, Keyed.get?_insert, h]

/-- The table under a key, where values further down are put. -/
def below (t : Table) (key : String) : Table := ((Keyed.get? key t).bind Value.table?).getD []

/-- A value further down is put in the table under the first key. -/
theorem put_cons (t : Table) (first s : String) (rest : List String) (v : Value) :
    t.put first (s :: rest) v = Keyed.insert first (.table ((t.below first).put s rest v)) t := by
  rw [put, below]
  cases Keyed.get? first t with
  | none => rfl
  | some w => cases w <;> rfl

private theorem get?_put_congr {t t' : Table} {first key : String}
    (hf : Keyed.get? first t = Keyed.get? first t') (hk : Keyed.get? key t = Keyed.get? key t')
    (rest : List String) (v : Value) :
    Keyed.get? key (t.put first rest v) = Keyed.get? key (t'.put first rest v) := by
  cases rest with
  | nil => simp [put, Keyed.get?_insert, hk]
  | cons s rest => simp [put_cons, Keyed.get?_insert, below, hf, hk]

/-- What stands further down stands in the table under the first key. -/
theorem at?_below (t : Table) (first s : String) (rest : List String) :
    t.at? first (s :: rest) = (t.below first).at? s rest := by
  rw [at?_eq t, below, at?_eq]
  cases Keyed.get? first t with
  | none => rfl
  | some v =>
    cases v with
    | table inner => exact Value.descend_table inner s rest
    | _ => rfl

/-- A value is found where it was put. -/
theorem at?_put_self (t : Table) (first : String) (rest : List String) (v : Value) :
    (t.put first rest v).at? first rest = some v := by
  induction rest generalizing t first with
  | nil => rw [at?_nil, put, Keyed.get?_insert_self]
  | cons s rest ih =>
    rw [put_cons, at?_eq, Keyed.get?_insert_self, Option.bind_some, Value.descend_table, ← at?_eq]
    exact ih (t.below first) s

/-- Nothing changes at a path that parts from this one. -/
theorem at?_put_of_apart {first key : String} {rest path : List String}
    (h : ¬ first :: rest <+: key :: path) (h' : ¬ key :: path <+: first :: rest) (t : Table)
    (v : Value) : (t.put first rest v).at? key path = t.at? key path := by
  induction rest generalizing t first key path with
  | nil =>
    have hne : first ≠ key := by
      rintro rfl
      exact h ⟨path, rfl⟩
    rw [at?_eq, at?_eq, get?_put_of_ne hne]
  | cons s rest ih =>
    by_cases hk : first = key
    · subst hk
      simp only [List.cons_prefix_cons, true_and] at h h'
      cases path with
      | nil => exact absurd List.nil_prefix h'
      | cons s' path =>
        rw [put_cons, at?_eq, Keyed.get?_insert_self, Option.bind_some, Value.descend_table,
          ← at?_eq, ih h h', at?_below t]
    · rw [at?_eq, at?_eq, get?_put_of_ne hk]

/-- What is written into records is written into their table. -/
theorem ofRecords_insert (name : String) (record : Table) (records : Keyed Table) :
    ofRecords (Keyed.insert name record records) =
      Keyed.insert name (.table record) (ofRecords records) :=
  Keyed.mapValues_insert _ name record records

/-- Under the name of a record stands the record. -/
theorem below_ofRecords (records : Keyed Table) (name : String) :
    (ofRecords records).below name = (Keyed.get? name records).getD [] := by
  rw [below, get?_ofRecords]
  cases Keyed.get? name records <;> rfl

end Table

namespace Config

variable {c c' : Config} {key : String} {v : Value}

/-! ### Values in the nested form -/

/-- The segments of a dotted key. -/
def path (key : String) : List String := (segments key).1 :: (segments key).2

/-- The nested form has the branch of connections and the keys of the root. -/
theorem get?_toNested (hc : Keyed.get? connectionsKey c.root = none) (k : String) :
    Keyed.get? k c.toNested =
      if k = connectionsKey then
        if c.connections.isEmpty then none else some (.table (Table.ofRecords c.connections))
      else Keyed.get? k c.root := by
  rw [toNested]
  by_cases hk : k = connectionsKey
  · subst hk
    cases c.connections.isEmpty <;> simp [hc]
  · cases c.connections.isEmpty <;> simp [hk, Keyed.get?_insert, Ne.symm hk]

/-- Under the key of the branch stand the records, if there are any. -/
theorem below_toNested (hc : Keyed.get? connectionsKey c.root = none) :
    c.toNested.below connectionsKey = Table.ofRecords c.connections := by
  rw [Table.below, get?_toNested hc, if_pos rfl]
  cases c.connections <;> rfl

/-- What stands at a key is what its path leads to in the nested form. -/
theorem valueAt?_eq (hc : Keyed.get? connectionsKey c.root = none) (key : String) :
    c.valueAt? key = c.toNested.at? (segments key).1 (segments key).2 := by
  have hrecord := Table.get?_ofRecords c.connections
  obtain ⟨first, rest, hs⟩ : ∃ first rest, segments key = (first, rest) := ⟨_, _, rfl⟩
  rw [hs]
  by_cases hf : first = connectionsKey
  · subst hf
    cases rest with
    | nil =>
      rw [valueAt?, hs, Table.at?_nil]
      rfl
    | cons name rest =>
      rw [Table.at?_below, below_toNested hc]
      cases rest with
      | nil =>
        rw [valueAt?, hs, Table.at?_nil, hrecord]
        rfl
      | cons param rest =>
        have hv : c.valueAt? key = c.get? key := by
          rw [valueAt?, hs]
          rfl
        rw [hv, get?_of_field hs, Table.at?_eq, hrecord]
        cases Keyed.get? name c.connections with
        | none => rfl
        | some record => exact (Table.at?_eq ..).trans (Value.descend_table ..).symm
  · rw [valueAt?_of_root hf hs, Table.at?_eq, Table.at?_eq, get?_toNested hc, if_neg hf]

/-- What stands at a key is what its path leads to in the nested form. -/
theorem descend_path (hc : Keyed.get? connectionsKey c.root = none) (key : String) :
    (Value.table c.toNested).descend (path key) = c.valueAt? key := by
  rw [path, Value.descend_table, ← Table.at?_eq, ← valueAt?_eq hc]

/-! ### What placing writes -/

/-- What a value that is placed under a key changes. -/
inductive Writes (c : Config) (key : String) (v : Value) : Config → Prop where
  | branch (records : Keyed Table) (hs : segments key = (connectionsKey, []))
      (hv : v = .table (Table.ofRecords records)) :
      Writes c key v { c with connections := Keyed.overlay c.connections records }
  | connection (name : String) (record : Table) (hs : segments key = (connectionsKey, [name]))
      (hv : v = .table record) :
      Writes c key v { c with connections := Keyed.insert name record c.connections }
  | field (name param : String) (rest : List String)
      (hs : segments key = (connectionsKey, name :: param :: rest)) :
      Writes c key v
        { c with
          connections := Keyed.insert name
            (((Keyed.get? name c.connections).getD []).put param rest v) c.connections }
  | root (first : String) (rest : List String) (hs : segments key = (first, rest))
      (hf : first ≠ connectionsKey) :
      Writes c key v { c with root := c.root.put first rest v }

/-- A value that is placed is written. -/
theorem writes_set (h : c.set key v = .ok c') : c.Writes key v c' := by
  unfold set at h
  split at h
  · next hs =>
    cases v with
    | table entries =>
      dsimp only at h
      split at h
      · next records hr =>
        cases h
        exact .branch records hs (congrArg Value.table (Table.eq_ofRecords hr))
      · cases h
    | _ => cases h
  · next name hs =>
    cases v with
    | table record =>
      cases h
      exact .connection name record hs rfl
    | _ => cases h
  · next name param rest hs =>
    cases h
    exact .field name param rest hs
  · next first rest hbranch hconnection hfield hs =>
    cases h
    refine .root first rest hs ?_
    rintro rfl
    match rest with
    | [] => exact hbranch rfl rfl
    | [name] => exact hconnection name rfl rfl
    | name :: param :: rest => exact hfield name param rest rfl rfl

/-- In the place of all connections, records are written over those that are there. -/
theorem exists_records_of_set (h : c.set connectionsKey v = .ok c') :
    ∃ records, v = .table (Table.ofRecords records) ∧
      c' = { c with connections := Keyed.overlay c.connections records } := by
  have hs : segments connectionsKey = (connectionsKey, []) := segments_of_no_dot (by decide)
  cases writes_set h with
  | branch records _ hv => exact ⟨records, hv, rfl⟩
  | connection name record hs' => cases hs.symm.trans hs'
  | field name param rest hs' => cases hs.symm.trans hs'
  | root first rest hs' hf => exact absurd (Prod.mk.inj (hs.symm.trans hs')).1.symm hf

/-- A configuration in which a value was placed has no root key for connections either. -/
theorem get?_root_set (hc : Keyed.get? connectionsKey c.root = none) (h : c.set key v = .ok c') :
    Keyed.get? connectionsKey c'.root = none := by
  cases writes_set h with
  | root first rest _ hf => rw [Table.get?_put_of_ne hf, hc]
  | _ => exact hc

private theorem get?_toNested_insert (hc : Keyed.get? connectionsKey c.root = none) (name : String)
    (record : Table) (k : String) :
    Keyed.get? k { c with connections := Keyed.insert name record c.connections }.toNested =
      Keyed.get? k (Keyed.insert connectionsKey
        (.table (Keyed.insert name (.table record) (Table.ofRecords c.connections)))
        c.toNested) := by
  have hc' : Keyed.get? connectionsKey
      { c with connections := Keyed.insert name record c.connections }.root = none := hc
  rw [get?_toNested hc', Keyed.get?_insert, get?_toNested hc, ← Table.ofRecords_insert]
  by_cases hk : k = connectionsKey
  · simp [hk, Keyed.insert_ne_nil]
  · simp [hk, Ne.symm hk]

/-- To place a value, other than at the branch of connections, is to put it in the nested form. -/
theorem get?_toNested_set (hc : Keyed.get? connectionsKey c.root = none)
    (hk : key ≠ connectionsKey) (h : c.set key v = .ok c') (k : String) :
    Keyed.get? k c'.toNested =
      Keyed.get? k (c.toNested.put (segments key).1 (segments key).2 v) := by
  cases writes_set h with
  | branch records hs => exact absurd (eq_of_segments hs).1.symm hk
  | connection name record hs hv =>
    rw [get?_toNested_insert hc, hs, Table.put_cons, below_toNested hc, hv]
    rfl
  | field name param rest hs =>
    rw [get?_toNested_insert hc, hs, Table.put_cons, below_toNested hc, Table.put_cons,
      Table.below_ofRecords]
  | root first rest hs hf =>
    rw [get?_toNested (get?_root_set hc h), hs]
    by_cases hb : k = connectionsKey
    · subst hb
      rw [Table.get?_put_of_ne hf c.toNested, get?_toNested hc, if_pos rfl, if_pos rfl]
    · rw [if_neg hb]
      apply Table.get?_put_congr
      · rw [get?_toNested hc, if_neg hf]
      · rw [get?_toNested hc, if_neg hb]

/-! ### Placing in place -/

/-- Check that all entries of a table are tables. -/
def checkRecords (entries : Table) : EStateM Misplaced Config Unit :=
  entries.forM fun e ↦
    if e.2.isTable then pure () else throw (.notTable (connectionKey e.1 "") e.2.kind)

/-- Write the record of one connection. -/
def writeRecord (e : String × Value) : EStateM Misplaced Config Unit :=
  match e.2 with
  | .table record =>
    modify fun c ↦ { c with connections := Keyed.insert e.1 record c.connections }
  | _ => pure ()

/-- Place a value in a configuration that is changed step by step: an error keeps what was written
before it. -/
def assign (key : String) (v : Value) : EStateM Misplaced Config Unit :=
  match segments key with
  | ("connections", []) =>
    match v with
    | .table entries => do
      checkRecords entries
      entries.forM writeRecord
    | v => throw (.notTable key v.kind)
  | ("connections", [name]) =>
    match v with
    | .table record => writeRecord (name, .table record)
    | v => throw (.notTable key v.kind)
  | ("connections", name :: param :: rest) =>
    modify fun c ↦
      { c with
        connections := Keyed.insert name
          (((Keyed.get? name c.connections).getD []).put param rest v) c.connections }
  | (first, rest) => modify fun c ↦ { c with root := c.root.put first rest v }

/-- The check finds what keeps entries from being records, and writes nothing. -/
theorem run_checkRecords (entries : Table) (c : Config) :
    (checkRecords entries).run c =
      match Table.records entries with
      | .ok _ => .ok () c
      | .error (name, found) => .error (.notTable (connectionKey name "") found) c := by
  induction entries with
  | nil => rfl
  | cons e rest ih =>
    obtain ⟨name, v⟩ := e
    cases v with
    | table record =>
      change (checkRecords rest).run c = _
      rw [ih, Table.records]
      cases Table.records rest <;> rfl
    | _ => rfl

/-- Records that are written one after the other make an overlay. -/
theorem run_writeRecords {entries : Table} {records : Keyed Table}
    (h : Table.records entries = .ok records) (c : Config) :
    (entries.forM writeRecord).run c =
      .ok () { c with connections := Keyed.overlay c.connections records } := by
  rw [Table.eq_ofRecords h]
  clear h
  induction records generalizing c with
  | nil => rfl
  | cons e rest ih =>
    exact ih { c with connections := Keyed.insert e.1 e.2 c.connections }

/-- A key outside the branch of connections takes every value. -/
theorem set_of_root {first : String} {rest : List String} (hs : segments key = (first, rest))
    (hf : first ≠ connectionsKey) (v : Value) (c : Config) :
    c.set key v = .ok { c with root := c.root.put first rest v } := by
  unfold set
  rw [hs]
  split
  · next hs => exact absurd (Prod.mk.inj hs).1 hf
  · next hs => exact absurd (Prod.mk.inj hs).1 hf
  · next hs => exact absurd (Prod.mk.inj hs).1 hf
  · next hs =>
    obtain ⟨rfl, rfl⟩ := Prod.mk.inj hs
    rfl

/-- So does such a key in place. -/
theorem run_assign_of_root {first : String} {rest : List String} (hs : segments key = (first, rest))
    (hf : first ≠ connectionsKey) (v : Value) (c : Config) :
    (assign key v).run c = .ok () { c with root := c.root.put first rest v } := by
  unfold assign
  rw [hs]
  split
  · next hs => exact absurd (Prod.mk.inj hs).1 hf
  · next hs => exact absurd (Prod.mk.inj hs).1 hf
  · next hs => exact absurd (Prod.mk.inj hs).1 hf
  · next hs =>
    obtain ⟨rfl, rfl⟩ := Prod.mk.inj hs
    rfl

/-- The branch of connections takes a table whose entries are tables. -/
theorem run_assign_of_branch (hs : segments key = (connectionsKey, [])) (entries : Table)
    (c : Config) :
    (assign key (.table entries)).run c =
      match c.set key (.table entries) with
      | .ok c' => .ok () c'
      | .error cause => .error cause c := by
  unfold assign set
  rw [hs]
  change (checkRecords entries >>= fun _ ↦ entries.forM writeRecord).run c = _
  rw [EStateM.run_bind, run_checkRecords]
  dsimp only [connectionsKey]
  cases hr : Table.records entries with
  | ok records => exact run_writeRecords hr c
  | error found => rfl

/-- An error in placing leaves the configuration as it was. -/
theorem run_assign (key : String) (v : Value) (c : Config) :
    (assign key v).run c =
      match c.set key v with
      | .ok c' => .ok () c'
      | .error cause => .error cause c := by
  obtain ⟨first, rest, hs⟩ : ∃ first rest, segments key = (first, rest) := ⟨_, _, rfl⟩
  by_cases hf : first = connectionsKey
  · subst hf
    match rest with
    | [] =>
      cases v with
      | table entries => exact run_assign_of_branch hs entries c
      | _ =>
        unfold assign set
        rw [hs]
        rfl
    | [name] =>
      unfold assign set
      rw [hs]
      cases v <;> rfl
    | name :: param :: rest =>
      unfold assign set
      rw [hs]
      rfl
  · rw [run_assign_of_root hs hf, set_of_root hs hf]

/-! ### The laws of placing -/

/-- A value other than the branch of connections is found under the key where it was placed. -/
theorem valueAt?_set_self (hc : Keyed.get? connectionsKey c.root = none)
    (hk : key ≠ connectionsKey) (h : c.set key v = .ok c') : c'.valueAt? key = some v := by
  rw [valueAt?_eq (get?_root_set hc h), Table.at?_eq, get?_toNested_set hc hk h, ← Table.at?_eq,
    Table.at?_put_self]

/-- Nothing changes at a path that parts from that of the key where a value was placed. -/
theorem descend_set_of_apart (hc : Keyed.get? connectionsKey c.root = none)
    (h : c.set key v = .ok c') {other : List String} (hp : ¬ path key <+: other)
    (hp' : ¬ other <+: path key) :
    (Value.table c'.toNested).descend other = (Value.table c.toNested).descend other := by
  cases other with
  | nil => exact absurd List.nil_prefix hp'
  | cons first rest =>
    rw [Value.descend_table, Value.descend_table]
    by_cases hk : key = connectionsKey
    · subst hk
      -- every key below the branch has its path in front
      have hf : first ≠ connectionsKey := by
        rintro rfl
        apply hp
        rw [path, segments_of_no_dot (by decide)]
        exact ⟨rest, rfl⟩
      obtain ⟨records, -, rfl⟩ := exists_records_of_set h
      rw [get?_toNested (get?_root_set hc h), get?_toNested hc, if_neg hf, if_neg hf]
    · rw [get?_toNested_set hc hk h, ← Table.at?_eq, ← Table.at?_eq]
      exact Table.at?_put_of_apart hp hp' c.toNested v

private theorem valueAt?_set_of_apart (hc : Keyed.get? connectionsKey c.root = none)
    (h : c.set key v = .ok c') {other : String} (hp : ¬ path key <+: path other)
    (hp' : ¬ path other <+: path key) : c'.valueAt? other = c.valueAt? other := by
  rw [← descend_path (get?_root_set hc h), ← descend_path hc]
  exact descend_set_of_apart hc h hp hp'

private theorem get?_connections_set (h : c.set connectionsKey v = .ok c') {entries : Table}
    (hv : v = .table entries) (he : Sorted entries) (name : String) :
    Keyed.get? name c'.connections =
      ((Keyed.get? name entries).bind Value.table?).or (Keyed.get? name c.connections) := by
  obtain ⟨records, hr, rfl⟩ := exists_records_of_set h
  obtain rfl := Value.table.inj (hv.symm.trans hr)
  rw [Keyed.get?_overlay _ (Table.sorted_of_ofRecords he), Table.get?_ofRecords]
  cases Keyed.get? name records <;> rfl

/-- Placing a value fails if it is something else than tables for the branch of connections, or
something else than a table for a connection, and then nothing has changed. Otherwise the value is
found under its key; of a table of connections, each is found under its name, and the others stay.
Nothing changes under keys whose paths part from this one, and the root is left without a key for
connections. -/
theorem set_lawful (c : Config) (hc : Keyed.get? connectionsKey c.root = none) (key : String)
    (v : Value) :
    ((∃ cause, c.set key v = .error cause) ↔ Unplaceable key v) ∧
      (∀ cause, c.set key v = .error cause → (assign key v).run c = .error cause c) ∧
      ∀ c', c.set key v = .ok c' →
        (assign key v).run c = .ok () c' ∧
          (key ≠ connectionsKey → c'.valueAt? key = some v) ∧
          (key = connectionsKey → ∀ entries, v = .table entries → Sorted entries → ∀ name,
            Keyed.get? name c'.connections =
              ((Keyed.get? name entries).bind Value.table?).or (Keyed.get? name c.connections)) ∧
          (∀ other, ¬ path key <+: path other → ¬ path other <+: path key →
            c'.valueAt? other = c.valueAt? other) ∧
          Keyed.get? connectionsKey c'.root = none := by
  have hrun := run_assign key v c
  refine ⟨?_, ?_, ?_⟩
  · rcases c.set_cases key v with ⟨c', hok, hu⟩ | ⟨cause, herror, hu⟩
    · simp [hok, hu]
    · simp [herror, hu]
  · intro cause h
    rw [hrun, h]
  · intro c' h
    refine ⟨by rw [hrun, h], fun hk ↦ valueAt?_set_self hc hk h, ?_, ?_, get?_root_set hc h⟩
    · rintro rfl entries hv he name
      exact get?_connections_set h hv he name
    · intro other hp hp'
      exact valueAt?_set_of_apart hc h hp hp'

/-- A host is placed in a table that is not there yet, and the account beside it stays. A scalar in the
place of the connection is refused, and the configuration is as it was. -/
theorem set_lawful_host :
    let c : Config :=
      { root := [("theme", .string "dark")], connections := [("dev", [("account", .string "a")])] }
    Keyed.get? connectionsKey c.root = none ∧
      (∃ c', c.set "connections.dev.proxy.host" (.string "h") = .ok c' ∧
        c'.valueAt? "connections.dev.proxy.host" = some (.string "h") ∧
        c'.valueAt? "connections.dev.account" = some (.string "a")) ∧
      ∃ cause, (assign "connections.dev" .null).run c = .error cause c := by
  intro c
  have hc : Keyed.get? connectionsKey c.root = none := rfl
  refine ⟨hc, ?_, ?_⟩
  · obtain ⟨-, -, hok⟩ := set_lawful c hc "connections.dev.proxy.host" (.string "h")
    obtain ⟨-, hself, -, hother, -⟩ := hok _ rfl
    exact ⟨_, rfl, hself (by decide), hother "connections.dev.account" (by decide) (by decide)⟩
  · obtain ⟨-, herror, -⟩ := set_lawful c hc "connections.dev" .null
    exact ⟨_, herror _ rfl⟩

end Config

end LayeredConfig
