import LayeredConfig.Proofs.Answer

/-!
# Narrowed tables

A table narrowed to a path holds at its end what the table holds there, and nothing else but the way
to it. If the table can be split, so can what it is narrowed to.
-/

namespace LayeredConfig

open Keyed (Sorted get?)

namespace Table

/-- A table without the first key of a path is narrowed to nothing. -/
theorem narrow_of_none {t : Table} {first : String} (h : get? first t = none)
    (rest : List String) : t.narrow first rest = [] := by
  cases rest <;> rw [narrow, h]

/-- Narrowed to a key, a table holds what is there. -/
theorem narrow_nil {t : Table} {first : String} {v : Value} (h : get? first t = some v) :
    t.narrow first [] = [(first, v)] := by
  rw [narrow, h]

/-- What is no table cannot be narrowed further. -/
theorem narrow_of_not_table {t : Table} {first : String} {v : Value} (h : get? first t = some v)
    (hv : v.isTable = false) (s : String) (rest : List String) :
    t.narrow first (s :: rest) = [] := by
  rw [narrow, h]
  cases v with
  | table t => cases hv
  | _ => rfl

/-- A table below a table is narrowed in turn. -/
theorem narrow_cons {t inner : Table} {first : String} (h : get? first t = some (.table inner))
    (s : String) (rest : List String) :
    t.narrow first (s :: rest) =
      if inner.narrow s rest = [] then [] else [(first, .table (inner.narrow s rest))] := by
  rw [narrow, h]
  dsimp only
  cases inner.narrow s rest <;> rfl

/-- Narrowing leaves at most one entry, that of the first key. -/
theorem narrow_shape (t : Table) (first : String) (rest : List String) :
    t.narrow first rest = [] ∨ ∃ v, t.narrow first rest = [(first, v)] := by
  cases h : get? first t with
  | none => exact Or.inl (narrow_of_none h rest)
  | some v =>
    cases rest with
    | nil => exact Or.inr ⟨v, narrow_nil h⟩
    | cons s rest =>
      cases hv : v.isTable with
      | false => exact Or.inl (narrow_of_not_table h hv s rest)
      | true =>
        obtain ⟨inner, rfl⟩ := Value.isTable_iff.mp hv
        rw [narrow_cons h]
        split
        · exact Or.inl rfl
        · exact Or.inr ⟨_, rfl⟩

/-- No other key is left. -/
theorem get?_narrow_of_ne {first key : String} (h : first ≠ key) (t : Table)
    (rest : List String) : get? key (t.narrow first rest) = none := by
  rcases narrow_shape t first rest with hs | ⟨v, hs⟩
  · rw [hs]
    rfl
  · rw [hs, Keyed.get?_cons, if_neg h]
    rfl

/-- What stands at the end of the path is kept. -/
theorem at?_narrow (t : Table) (first : String) (rest : List String) :
    (t.narrow first rest).at? first rest = t.at? first rest := by
  induction rest generalizing t first with
  | nil =>
    cases h : get? first t with
    | none => rw [narrow_of_none h, at?, at?, h]; rfl
    | some v => rw [narrow_nil h, at?, at?, h, Keyed.get?_cons, if_pos rfl]
  | cons s rest ih =>
    cases h : get? first t with
    | none => rw [narrow_of_none h, at?, at?, h]; rfl
    | some v =>
      cases hv : v.isTable with
      | false =>
        rw [narrow_of_not_table h hv, at?_eq t, h, Option.bind_some,
          Value.descend_of_not_table hv]
        rfl
      | true =>
        obtain ⟨inner, rfl⟩ := Value.isTable_iff.mp hv
        have ih := ih inner s
        rw [narrow_cons h, at?_eq t, h, Option.bind_some, Value.descend_table, ← at?_eq, ← ih]
        split
        · next hn => rw [hn]; rfl
        · rw [at?_eq, Keyed.get?_cons, if_pos rfl, Option.bind_some, Value.descend_table, ← at?_eq]

/-- Nothing is left exactly if nothing stands at the end of the path. -/
theorem narrow_eq_nil_iff (t : Table) (first : String) (rest : List String) :
    t.narrow first rest = [] ↔ t.at? first rest = none := by
  induction rest generalizing t first with
  | nil =>
    cases h : get? first t with
    | none => simp only [narrow_of_none h, at?_eq, h, Option.bind_none]
    | some v => simp [narrow_nil h, at?_eq, h, Value.descend_nil]
  | cons s rest ih =>
    cases h : get? first t with
    | none => simp only [narrow_of_none h, at?_eq, h, Option.bind_none]
    | some v =>
      rw [at?_eq, h, Option.bind_some]
      cases hv : v.isTable with
      | false => simp only [narrow_of_not_table h hv, Value.descend_of_not_table hv]
      | true =>
        obtain ⟨inner, rfl⟩ := Value.isTable_iff.mp hv
        rw [narrow_cons h, Value.descend_table, ← at?_eq, ← ih]
        split
        · next hn => simp only [hn]
        · next hn => simp only [hn, reduceCtorEq]

private theorem ordered_single (key : String) {v : Value} (hv : v.Ordered) :
    (Value.table [(key, v)]).Ordered :=
  ⟨List.pairwise_singleton _ _, hv, trivial⟩

/-- Narrowing keeps the keys in order. -/
theorem ordered_narrow {t : Table} (ht : (Value.table t).Ordered) (first : String)
    (rest : List String) : (Value.table (t.narrow first rest)).Ordered := by
  induction rest generalizing t first with
  | nil =>
    cases h : get? first t with
    | none => rw [narrow_of_none h]; exact ⟨Keyed.sorted_nil, trivial⟩
    | some v => rw [narrow_nil h]; exact ordered_single first (ht.get? h)
  | cons s rest ih =>
    cases h : get? first t with
    | none => rw [narrow_of_none h]; exact ⟨Keyed.sorted_nil, trivial⟩
    | some v =>
      cases hv : v.isTable with
      | false => rw [narrow_of_not_table h hv]; exact ⟨Keyed.sorted_nil, trivial⟩
      | true =>
        obtain ⟨inner, rfl⟩ := Value.isTable_iff.mp hv
        rw [narrow_cons h]
        split
        · exact ⟨Keyed.sorted_nil, trivial⟩
        · exact ordered_single first (ih (ht.get? h) s)

end Table

/-- Tables of records are records. -/
theorem Table.records_ofRecords (records : Keyed Table) :
    Table.records (Table.ofRecords records) = .ok records := by
  induction records with
  | nil => rfl
  | cons e rest ih =>
    obtain ⟨name, record⟩ := e
    have hc : Table.ofRecords ((name, record) :: rest) =
        (name, .table record) :: Table.ofRecords rest := rfl
    rw [hc, Table.records, ih]

private theorem Config.exists_ofNested {t : Table}
    (h : Keyed.get? connectionsKey t = none ∨
      ∃ records, Keyed.get? connectionsKey t = some (.table (Table.ofRecords records))) :
    ∃ c, ofNested t = .ok c := by
  rcases h with h | ⟨records, h⟩
  · rw [ofNested, h]
    exact ⟨_, rfl⟩
  · rw [ofNested, h]
    dsimp only
    rw [Table.records_ofRecords]
    exact ⟨_, rfl⟩

private theorem Table.exists_narrow_ofRecords (records : Keyed Table) (name : String)
    (rest : List String) :
    ∃ records', (Table.ofRecords records).narrow name rest = Table.ofRecords records' := by
  have hg := Table.get?_ofRecords records name
  cases hr : Keyed.get? name records with
  | none =>
    rw [hr, Option.map_none] at hg
    rw [Table.narrow_of_none hg]
    exact ⟨[], rfl⟩
  | some record =>
    rw [hr, Option.map_some] at hg
    cases rest with
    | nil =>
      rw [Table.narrow_nil hg]
      exact ⟨[(name, record)], rfl⟩
    | cons p rest =>
      rw [Table.narrow_cons hg]
      split
      · exact ⟨[], rfl⟩
      · exact ⟨[(name, record.narrow p rest)], rfl⟩

/-- What a table that can be split is narrowed to can be split. -/
theorem Config.exists_ofNested_narrow {t : Table} {c : Config} (h : ofNested t = .ok c)
    (first : String) (rest : List String) : ∃ c', ofNested (t.narrow first rest) = .ok c' := by
  apply exists_ofNested
  by_cases hf : first = connectionsKey
  · subst hf
    rcases (ofNested_ok h).2 with ⟨hn, -⟩ | hb
    · rw [Table.narrow_of_none hn]
      exact Or.inl rfl
    · cases rest with
      | nil =>
        rw [Table.narrow_nil hb, Keyed.get?_cons, if_pos rfl]
        exact Or.inr ⟨_, rfl⟩
      | cons name rest =>
        rw [Table.narrow_cons hb]
        split
        · exact Or.inl rfl
        · rw [Keyed.get?_cons, if_pos rfl]
          obtain ⟨records, hr⟩ := Table.exists_narrow_ofRecords c.connections name rest
          rw [hr]
          exact Or.inr ⟨records, rfl⟩
  · exact Or.inl (Table.get?_narrow_of_ne hf t rest)

end LayeredConfig
