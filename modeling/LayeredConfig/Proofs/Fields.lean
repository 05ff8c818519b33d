import LayeredConfig.Proofs.Leaves
import LayeredConfig.Proofs.Held

/-!
# Fields by dotted key

Where all keys of the answers are plain, the dotted key of a connection's field tells which field it
is, and the leaf that an answer has under it is the field.
-/

namespace LayeredConfig

open Keyed (Sorted get?)

/-- The path of a field is plain where the connection's name and the key are. -/
theorem plainKey_of_mem_path {name key : String} (hn : PlainKey name) (hk : PlainKey key) :
    ∀ s ∈ [connectionsKey, name, key], PlainKey s := by
  intro s hs
  have hc : PlainKey connectionsKey := by decide
  simp only [List.mem_cons, List.not_mem_nil, or_false] at hs
  rcases hs with rfl | rfl | rfl
  · exact hc
  · exact hn
  · exact hk

/-- The fields of connections have different keys. -/
theorem connectionKey_inj {name key name' key' : String} (hn : PlainKey name) (hk : PlainKey key)
    (hn' : PlainKey name') (hk' : PlainKey key')
    (h : connectionKey name key = connectionKey name' key') : name = name' ∧ key = key' := by
  rw [connectionKey_eq_dotted hk.1, connectionKey_eq_dotted hk'.1] at h
  have hp := dotted_inj (plainKey_of_mem_path hn hk) (plainKey_of_mem_path hn' hk')
    (List.cons_ne_nil _ _) (List.cons_ne_nil _ _) h
  rw [List.cons.injEq, List.cons.injEq, List.cons.injEq] at hp
  exact ⟨hp.2.1, hp.2.2.1⟩

/-- The key of a field is no plain key itself. -/
theorem connectionKey_ne {name key key' : String} (hn : PlainKey name) (hk : PlainKey key)
    (hk' : PlainKey key') : connectionKey name key ≠ key' := by
  intro h
  rw [connectionKey_eq_dotted hk.1] at h
  have hpath : [connectionsKey, name, key] = [key'] :=
    dotted_inj (plainKey_of_mem_path hn hk) (fun s hs ↦ List.mem_singleton.mp hs ▸ hk')
      (List.cons_ne_nil _ _) (List.cons_ne_nil _ _) h
  exact List.cons_ne_nil _ _ (List.cons.inj hpath).2

namespace Answer

variable {a : Answer}

/-- The field that an answer has for a connection. -/
def field? (a : Answer) (name key : String) : Option Value := (a.record? name).bind (get? key)

/-- Fields are the values two levels below the branch of connections. -/
theorem field?_eq (a : Answer) (name key : String) :
    a.field? name key = a.data.at? connectionsKey [name, key] := by
  rw [Table.at?_cons, ← recordValue?_eq, recordValue?, field?]
  cases a.record? name with
  | none => rfl
  | some record =>
    rw [Option.bind_some, Option.map_some, Option.bind_some, Value.descend_table]
    cases get? key record with
    | none => rfl
    | some v => exact (Value.descend_nil v).symm

/-- The keys on the way to a field of a plain answer are plain. -/
theorem plainKey_of_field? (hp : (Value.table a.data).Plain) {name key : String} {v : Value}
    (hv : a.field? name key = some v) : PlainKey name ∧ PlainKey key := by
  rw [field?_eq, Table.at?_eq, ← Value.descend_table] at hv
  have hs := hp.descend hv
  constructor
  · apply hs
    simp
  · apply hs
    simp

private theorem plainKey_of_record? (hp : (Value.table a.data).Plain) {name : String}
    {record : Table} (hr : a.record? name = some record) : PlainKey name := by
  have hv : a.recordValue? name = some (.table record) := by rw [recordValue?, hr, Option.map_some]
  rw [recordValue?_eq, Table.at?_eq, ← Value.descend_table] at hv
  apply hp.descend hv
  simp

/-- The root keys of a plain answer are plain. -/
theorem plainKey_of_root? (hp : (Value.table a.data).Plain) {key : String} {v : Value}
    (hv : a.root? key = some v) : PlainKey key := by
  rw [root?_eq] at hv
  split at hv
  · cases hv
  · exact (hp.get? hv).1

/-- The leaf that an answer has under a dotted key. -/
def leaf? (a : Answer) (key : String) : Option Value := get? key (Table.flatten a.data)

/-- A leaf of the table is a leaf under the dotted key of its path. -/
theorem leaf?_of_at? (ho : a.Ordered) (hp : (Value.table a.data).Plain) {first : String}
    {rest : List String} {x : Value} (hx : a.data.at? first rest = some x)
    (hl : x.isLeaf = true) : a.leaf? (dotted (first :: rest)) = some x :=
  (Table.get?_flatten ho hp _ x).mpr ⟨first, rest, hx, hl, rfl⟩

private theorem at?_of_leaf? (ho : a.Ordered) (hp : (Value.table a.data).Plain) {first : String}
    {rest : List String} (h : ∀ s ∈ first :: rest, PlainKey s) {x : Value}
    (hx : a.leaf? (dotted (first :: rest)) = some x) :
    a.data.at? first rest = some x ∧ x.isLeaf = true := by
  obtain ⟨first', rest', hx', hl, hk⟩ := (Table.get?_flatten ho hp _ x).mp hx
  have h' : ∀ s ∈ first' :: rest', PlainKey s := by
    rw [Table.at?_eq, ← Value.descend_table] at hx'
    exact hp.descend hx'
  have he := dotted_inj h h' (List.cons_ne_nil _ _) (List.cons_ne_nil _ _) hk
  obtain ⟨rfl, rfl⟩ := List.cons.inj he
  exact ⟨hx', hl⟩

/-- The leaf under the key of a field is the field. -/
theorem leaf?_connectionKey (ho : a.Ordered) (hp : (Value.table a.data).Plain)
    {name key : String} (hn : PlainKey name) (hk : PlainKey key) {x : Value} :
    a.leaf? (connectionKey name key) = some x ↔
      a.field? name key = some x ∧ x.isLeaf = true := by
  rw [connectionKey_eq_dotted hk.1, field?_eq]
  constructor
  · intro hx
    exact at?_of_leaf? ho hp (plainKey_of_mem_path hn hk) hx
  · rintro ⟨hx, hl⟩
    exact leaf?_of_at? ho hp hx hl

end Answer

namespace Supply

variable {s : Supply}

/-- All keys of all answers are plain. -/
def Plain (s : Supply) : Prop := ∀ a ∈ s.answers, (Value.table a.data).Plain

instance (s : Supply) : Decidable s.Plain :=
  inferInstanceAs (Decidable (∀ a ∈ s.answers, (Value.table a.data).Plain))

/-- The names of connections are plain. -/
theorem Plain.of_names (hp : s.Plain) {name : String} (hn : s.names name = true) :
    PlainKey name := by
  obtain ⟨a, ha, record, hr⟩ := names_iff.mp hn
  exact Answer.plainKey_of_record? (hp a ha) hr

/-- The keys of general parameters are plain. -/
theorem Plain.of_general? (hp : s.Plain) {a : Answer} (ha : a ∈ s.answers) {key : String}
    {v : Value} (hg : a.general? key = some v) : PlainKey key :=
  Answer.plainKey_of_root? (hp a ha) (Answer.general?_eq_some_iff.mp hg).1

/-- The keys of the root are plain. -/
theorem Plain.of_root (h : s.Ordered) (hp : s.Plain) {key : String} {v : Value}
    (hv : get? key s.root = some v) : PlainKey key := by
  have hr : get? key s.root ≠ none := by
    rw [hv]
    exact Option.some_ne_none v
  rw [get?_root h, ne_eq, stack_eq_none_iff, last?_eq_none_iff] at hr
  push Not at hr
  obtain ⟨a, ha, hr⟩ := hr
  obtain ⟨w, hw⟩ := Option.ne_none_iff_exists'.mp hr
  exact Answer.plainKey_of_root? (hp a ha) hw

/-- Where an own record has no field, no overlay has. -/
theorem field?_eq_none_of_overlay (h : s.Ordered) {name key : String}
    (hn : get? key (s.record name) = none) {a : Answer} (ha : a ∈ s.overlays) :
    a.field? name key = none := by
  induction s using induction with
  | empty => cases ha
  | file s b hs ih =>
    have ha : a ∈ s.overlays := ha
    rw [hs] at ha
    cases ha
  | overlay s b ih =>
    obtain ⟨ho, hb⟩ := h.of_snoc (answers_addOverlay s b)
    obtain ⟨hn, hf⟩ := (Layers.get?_record_addOverlay_eq_none hb s name key).mp hn
    rcases List.mem_append.mp ha with ha | ha
    · exact ih ho hn ha
    · obtain rfl := List.mem_singleton.mp ha
      rw [Layers.hasField_eq] at hf
      rw [Answer.field?]
      cases hr : a.record? name with
      | none => rfl
      | some fields =>
        rw [hr, Option.any_some, Keyed.contains_eq_false_iff] at hf
        rw [Option.bind_some, hf]

end Supply

end LayeredConfig
