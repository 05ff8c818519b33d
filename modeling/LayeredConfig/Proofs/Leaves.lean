import LayeredConfig.Proofs.Places

/-!
# Leaves by path

The leaves of a table are the values at the ends of its paths that are no tables, or empty ones. Where
all keys are plain, different paths have different dotted keys, so flattening loses none of them. A
merge makes no leaves: each stood at the same path on one of both sides.
-/

namespace LayeredConfig

open Keyed (Sorted get?)

/-- A key that a dotted key can be made of. -/
def PlainKey (key : String) : Prop := key ≠ "" ∧ '.' ∉ key.toList

instance (key : String) : Decidable (PlainKey key) :=
  inferInstanceAs (Decidable (key ≠ "" ∧ '.' ∉ key.toList))

namespace Value

/-- Whether flattening ends at a value. -/
def isLeaf : Value → Bool
  | .table (_ :: _) => false
  | _ => true

mutual

/-- All keys of a table and of the tables in it are plain. -/
def Plain : Value → Prop
  | .table entries => PlainEntries entries
  | _ => True

/-- All keys of some entries are plain. -/
def PlainEntries : List (String × Value) → Prop
  | [] => True
  | (k, v) :: rest => PlainKey k ∧ v.Plain ∧ PlainEntries rest

end

mutual

/-- Whether all keys of a value are plain is decided level by level. -/
instance decidablePlain : (v : Value) → Decidable v.Plain
  | .table entries => decidablePlainEntries entries
  | .null | .bool _ | .int _ | .float _ | .string _ | .array _ => .isTrue trivial

/-- Whether all keys of some entries are plain is decided one by one. -/
instance decidablePlainEntries : (entries : List (String × Value)) → Decidable (PlainEntries entries)
  | [] => .isTrue trivial
  | (k, v) :: rest =>
    have := decidablePlain v
    have := decidablePlainEntries rest
    inferInstanceAs (Decidable (PlainKey k ∧ v.Plain ∧ PlainEntries rest))

end

/-- A value that is no table is a leaf. -/
theorem isLeaf_of_not_table {v : Value} (h : v.isTable = false) : v.isLeaf = true := by
  cases v with
  | table t => cases h
  | _ => rfl

/-- A table is a leaf if it is empty. -/
theorem isLeaf_table {t : Table} : (Value.table t).isLeaf = true ↔ t = [] := by
  cases t with
  | nil => exact iff_of_true rfl rfl
  | cons e rest => exact iff_of_false Bool.false_ne_true (List.cons_ne_nil e rest)

/-- Nothing stands below a leaf. -/
theorem descend_of_isLeaf {v : Value} (h : v.isLeaf = true) (s : String) (rest : List String) :
    v.descend (s :: rest) = none := by
  cases v with
  | table t =>
    cases t with
    | nil => rfl
    | cons e entries => cases h
  | _ => rfl

/-- A path of a plain table is made of plain keys. -/
theorem Plain.get? {t : Table} (h : (Value.table t).Plain) {k : String} {v : Value}
    (hv : Keyed.get? k t = some v) : PlainKey k ∧ v.Plain := by
  have all : ∀ entries : List (String × Value), PlainEntries entries → (k, v) ∈ entries →
      PlainKey k ∧ v.Plain := by
    intro entries
    induction entries with
    | nil => exact fun _ hm ↦ absurd hm List.not_mem_nil
    | cons e rest ih =>
      rintro ⟨hk, he, hr⟩ hm
      rcases List.mem_cons.mp hm with rfl | hm
      · exact ⟨hk, he⟩
      · exact ih hr hm
  exact all t h (Keyed.mem_of_get? hv)

/-- All segments of a path into a plain value are plain. -/
theorem Plain.descend {v x : Value} (h : v.Plain) {path : List String}
    (hx : v.descend path = some x) : ∀ s ∈ path, PlainKey s := by
  induction path generalizing v with
  | nil => exact fun s hs ↦ absurd hs List.not_mem_nil
  | cons s rest ih =>
    cases hv : v.isTable with
    | false =>
      rw [descend_of_not_table hv] at hx
      cases hx
    | true =>
      obtain ⟨t, rfl⟩ := isTable_iff.mp hv
      rw [descend_table] at hx
      obtain ⟨w, hw, hx⟩ := Option.bind_eq_some_iff.mp hx
      obtain ⟨hs, hwp⟩ := h.get? hw
      intro s' hs'
      rcases List.mem_cons.mp hs' with rfl | hs'
      · exact hs
      · exact ih hwp hx s' hs'

end Value

/-! ### Dotted keys -/

/-- The dotted key of a path. -/
def dotted (path : List String) : String := path.foldl Table.joinKey ""

/-- Joining goes on behind a dot. -/
theorem Table.joinKey_of_ne {path : String} (h : path ≠ "") (key : String) :
    joinKey path key = path ++ "." ++ key := by
  rw [joinKey, if_neg]
  intro he
  exact h (String.isEmpty_iff.mp he)

private theorem append_ne_empty {a b : String} (h : a ≠ "") : a ++ b ≠ "" := by
  intro he
  have ht := congrArg String.toList he
  rw [String.toList_append] at ht
  exact h (String.toList_inj.mp (List.append_eq_nil_iff.mp ht).1)

private theorem foldl_joinKey {first next : String} (hf : first ≠ "") (hn : next ≠ "")
    (rest : List String) :
    (next :: rest).foldl Table.joinKey first = first ++ "." ++ rest.foldl Table.joinKey next := by
  induction rest generalizing next with
  | nil => exact Table.joinKey_of_ne hf next
  | cons s rest ih =>
    have hj : Table.joinKey (Table.joinKey first next) s =
        Table.joinKey first (Table.joinKey next s) := by
      rw [Table.joinKey_of_ne hf, Table.joinKey_of_ne hn,
        Table.joinKey_of_ne (append_ne_empty (append_ne_empty hf)), Table.joinKey_of_ne hf]
      simp only [String.append_assoc]
    have hns : Table.joinKey next s ≠ "" := by
      rw [Table.joinKey_of_ne hn]
      exact append_ne_empty (append_ne_empty hn)
    rw [List.foldl_cons, List.foldl_cons, List.foldl_cons, hj]
    exact ih hns

/-- The segments of the dotted key of plain keys are these keys. -/
theorem segments_dotted {first : String} {rest : List String}
    (h : ∀ s ∈ first :: rest, PlainKey s) : segments (dotted (first :: rest)) = (first, rest) := by
  have hd : dotted (first :: rest) = rest.foldl Table.joinKey first := rfl
  rw [hd]
  induction rest generalizing first with
  | nil => exact segments_of_no_dot (h first List.mem_cons_self).2
  | cons next rest ih =>
    obtain ⟨hf, hfd⟩ := h first List.mem_cons_self
    have hn := h next (List.mem_cons_of_mem _ List.mem_cons_self)
    rw [foldl_joinKey hf hn.1, segments_append hfd,
      ih (fun s hs ↦ h s (List.mem_cons_of_mem _ hs)) rfl]

/-- Different paths of plain keys have different dotted keys. -/
theorem dotted_inj {path path' : List String} (h : ∀ s ∈ path, PlainKey s)
    (h' : ∀ s ∈ path', PlainKey s) (hn : path ≠ []) (hn' : path' ≠ [])
    (he : dotted path = dotted path') : path = path' := by
  obtain ⟨first, rest, rfl⟩ := List.exists_cons_of_ne_nil hn
  obtain ⟨first', rest', rfl⟩ := List.exists_cons_of_ne_nil hn'
  have hs := segments_dotted h
  rw [he, segments_dotted h'] at hs
  obtain ⟨rfl, rfl⟩ := Prod.mk.inj hs
  rfl

/-- The key of a connection's field is that of its path. -/
theorem connectionKey_eq_dotted {key : String} (h : key ≠ "") (name : String) :
    connectionKey name key = dotted [connectionsKey, name, key] := by
  have hc : connectionsKey ≠ "" := by decide
  rw [connectionKey, if_neg (fun he ↦ h (String.isEmpty_iff.mp he))]
  change _ = Table.joinKey (Table.joinKey connectionsKey name) key
  rw [Table.joinKey_of_ne hc, Table.joinKey_of_ne (append_ne_empty (append_ne_empty hc))]

/-- The key of a connection is that of its path. -/
theorem connectionKey_empty (name : String) :
    connectionKey name "" = dotted [connectionsKey, name] := by
  have hc : connectionsKey ≠ "" := by decide
  rw [connectionKey, if_pos (by decide)]
  exact (Table.joinKey_of_ne hc name).symm

/-! ### Flattening -/

private theorem mem_single_leaf {path key : String} {v x : Value} (h : v.isLeaf = true) :
    (key, x) ∈ [(path, v)] ↔
      ∃ rest, v.descend rest = some x ∧ x.isLeaf = true ∧
        key = rest.foldl Table.joinKey path := by
  rw [List.mem_singleton, Prod.mk.injEq]
  constructor
  · rintro ⟨rfl, rfl⟩
    exact ⟨[], Value.descend_nil x, h, rfl⟩
  · rintro ⟨rest, hx, -, hk⟩
    cases rest with
    | nil =>
      rw [Value.descend_nil, Option.some.injEq] at hx
      exact ⟨hk, hx.symm⟩
    | cons s rest =>
      rw [Value.descend_of_isLeaf h] at hx
      cases hx

mutual

private theorem Table.mem_valueLeaves {key : String} {x : Value} : ∀ (path : String) (v : Value),
    v.Ordered → ((key, x) ∈ valueLeaves path v ↔
      ∃ rest, v.descend rest = some x ∧ x.isLeaf = true ∧ key = rest.foldl joinKey path)
  | path, .table (e :: entries), h => by
    rw [valueLeaves, mem_leaves path (e :: entries) h.1 h.2]
    constructor
    · rintro ⟨first, rest, hx, hl, hk⟩
      rw [at?_eq, ← Value.descend_table] at hx
      exact ⟨first :: rest, hx, hl, hk⟩
    · rintro ⟨rest, hx, hl, hk⟩
      cases rest with
      | nil =>
        rw [Value.descend_nil, Option.some.injEq] at hx
        subst hx
        cases hl
      | cons first rest =>
        rw [Value.descend_table, ← at?_eq] at hx
        exact ⟨first, rest, hx, hl, hk⟩
  | path, .table [], _ => mem_single_leaf rfl
  | path, .null, _ => mem_single_leaf rfl
  | path, .bool _, _ => mem_single_leaf rfl
  | path, .int _, _ => mem_single_leaf rfl
  | path, .float _, _ => mem_single_leaf rfl
  | path, .string _, _ => mem_single_leaf rfl
  | path, .array _, _ => mem_single_leaf rfl

/-- The leaves of a table are at the ends of its paths. -/
theorem Table.mem_leaves {key : String} {x : Value} : ∀ (path : String)
    (entries : List (String × Value)), Sorted entries → Value.OrderedEntries entries →
      ((key, x) ∈ leaves path entries ↔
        ∃ first rest, at? entries first rest = some x ∧ x.isLeaf = true ∧
          key = (first :: rest).foldl joinKey path)
  | path, [], _, _ => by
    rw [leaves]
    constructor
    · intro h
      cases h
    · rintro ⟨first, rest, hx, -⟩
      cases hx
  | path, (k, v) :: entries, hs, ho => by
    rw [leaves, List.mem_append, mem_valueLeaves (joinKey path k) v ho.1,
      mem_leaves path entries hs.tail ho.2]
    constructor
    · rintro (⟨rest, hx, hl, hk⟩ | ⟨first, rest, hx, hl, hk⟩)
      · refine ⟨k, rest, ?_, hl, hk⟩
        rw [at?_eq, Keyed.get?_cons, if_pos rfl]
        exact hx
      · refine ⟨first, rest, ?_, hl, hk⟩
        have hne : k ≠ first := by
          rintro rfl
          rw [at?_eq, hs.get?_tail] at hx
          cases hx
        rw [at?_eq, Keyed.get?_cons, if_neg hne, ← at?_eq]
        exact hx
    · rintro ⟨first, rest, hx, hl, hk⟩
      rw [at?_eq, Keyed.get?_cons] at hx
      split at hx
      · next hf =>
        subst hf
        exact Or.inl ⟨rest, hx, hl, hk⟩
      · rw [← at?_eq] at hx
        exact Or.inr ⟨first, rest, hx, hl, hk⟩

end

private theorem isLeaf_of_mem_single {path key : String} {v x : Value} (hv : v.isLeaf = true)
    (h : (key, x) ∈ [(path, v)]) : x.isLeaf = true := by
  cases List.mem_singleton.mp h
  exact hv

mutual

private theorem Table.isLeaf_of_mem_valueLeaves {key : String} {x : Value} :
    ∀ (path : String) (v : Value),
    (key, x) ∈ valueLeaves path v → x.isLeaf = true
  | path, .table (e :: entries), h => by
    rw [valueLeaves] at h
    exact isLeaf_of_mem_leaves path (e :: entries) h
  | _, .table [], h => isLeaf_of_mem_single rfl h
  | _, .null, h => isLeaf_of_mem_single rfl h
  | _, .bool _, h => isLeaf_of_mem_single rfl h
  | _, .int _, h => isLeaf_of_mem_single rfl h
  | _, .float _, h => isLeaf_of_mem_single rfl h
  | _, .string _, h => isLeaf_of_mem_single rfl h
  | _, .array _, h => isLeaf_of_mem_single rfl h

/-- What is among the leaves of a table is a leaf. -/
theorem Table.isLeaf_of_mem_leaves {key : String} {x : Value} : ∀ (path : String)
    (entries : List (String × Value)), (key, x) ∈ leaves path entries → x.isLeaf = true
  | _, [], h => by
    rw [leaves] at h
    cases h
  | path, (k, v) :: entries, h => by
    rw [leaves, List.mem_append] at h
    rcases h with h | h
    · exact isLeaf_of_mem_valueLeaves (joinKey path k) v h
    · exact isLeaf_of_mem_leaves path entries h

end

/-- What a table flattens to are leaves. -/
theorem Table.isLeaf_of_mem_flatten {t : Table} {e : String × Value} (h : e ∈ t.flatten) :
    e.2.isLeaf = true :=
  isLeaf_of_mem_leaves "" t (Keyed.mem_of_mem_ofList h)

/-- So does a configuration. -/
theorem Config.isLeaf_of_mem_flatten {c : Config} {e : String × Value} (h : e ∈ c.flatten) :
    e.2.isLeaf = true := by
  rcases List.mem_append.mp (Keyed.mem_of_mem_ofList h) with h | h
  · exact Table.isLeaf_of_mem_leaves _ _ h
  · obtain ⟨_, -, h⟩ := List.mem_flatMap.mp h
    exact Table.isLeaf_of_mem_leaves _ _ h

/-- A leaf of a merge was a leaf on one of both sides. -/
theorem Table.leaf_of_merged {o : Option Value} {v x : Value} (hv : v.Ordered)
    {path : List String} (hx : (merged o v).descend path = some x) (hl : x.isLeaf = true) :
    v.descend path = some x ∨ o.bind (·.descend path) = some x := by
  rw [descend_merged o hv] at hx
  cases hy : v.descend path with
  | none =>
    rw [hy] at hx
    dsimp only at hx
    split at hx
    · cases hx
    · exact Or.inr hx
  | some y =>
    rw [hy] at hx
    refine Or.inl ?_
    rw [← hx, Option.some.injEq]
    have hx := Option.some.inj hx
    cases ht : y.isTable with
    | false => rw [merged_of_not_table _ ht]
    | true =>
      obtain ⟨new, rfl⟩ := Value.isTable_iff.mp ht
      cases hw : o.bind (·.descend path) with
      | none => rw [merged_none]
      | some w =>
        cases hwt : w.isTable with
        | false => rw [merged_over hwt]
        | true =>
          obtain ⟨old, rfl⟩ := Value.isTable_iff.mp hwt
          rw [hw, merged_table] at hx
          have hnil : deepMerge old new = [] := by
            rw [← hx] at hl
            exact Value.isLeaf_table.mp hl
          have hnew : (Value.table new).Ordered := hv.descend hy
          rw [merged_table, hnil, eq_nil_of_deepMerge hnew.sorted hnil]

/-- Every key of some entries is found in their map. -/
theorem Keyed.isSome_get?_ofList {α : Type} {k : String} {a : α} {entries : List (String × α)}
    (h : (k, a) ∈ entries) : (get? k (ofList entries)).isSome = true :=
  (contains_overlay [] entries k).trans (contains_iff.mpr ⟨a, h⟩)

/-- A map of entries of which no two differ under one key has all of them. -/
theorem Keyed.mem_ofList {α : Type} {entries : List (String × α)}
    (h : ∀ k a b, (k, a) ∈ entries → (k, b) ∈ entries → a = b) {k : String} {a : α} :
    (k, a) ∈ ofList entries ↔ (k, a) ∈ entries := by
  refine ⟨mem_of_mem_ofList, fun hm ↦ ?_⟩
  obtain ⟨b, hb⟩ := Option.isSome_iff_exists.mp (isSome_get?_ofList hm)
  have hb := mem_of_get? hb
  rw [h k a b hm (mem_of_mem_ofList hb)]
  exact hb

/-- Where keys are plain, flattening keeps every leaf under the dotted key of its path. -/
theorem Table.get?_flatten {t : Table} (ho : (Value.table t).Ordered)
    (hp : (Value.table t).Plain) (key : String) (x : Value) :
    get? key (flatten t) = some x ↔
      ∃ first rest, t.at? first rest = some x ∧ x.isLeaf = true ∧
        key = dotted (first :: rest) := by
  have hleaves : ∀ k a, (k, a) ∈ leaves "" t ↔ ∃ first rest, t.at? first rest = some a ∧
      a.isLeaf = true ∧ k = dotted (first :: rest) := fun _ _ ↦ mem_leaves "" t ho.1 ho.2
  rw [flatten, ← (Keyed.sorted_ofList _).mem_iff, Keyed.mem_ofList, hleaves]
  intro k a b ha hb
  obtain ⟨first, rest, ha, -, hk⟩ := (hleaves k a).mp ha
  obtain ⟨first', rest', hb, -, hk'⟩ := (hleaves k b).mp hb
  rw [at?_eq, ← Value.descend_table] at ha hb
  have he := dotted_inj (hp.descend ha) (hp.descend hb) (List.cons_ne_nil _ _)
    (List.cons_ne_nil _ _) (hk.symm.trans hk')
  rw [he, hb, Option.some.injEq] at ha
  exact ha.symm

end LayeredConfig
