import LayeredConfig.Proofs.Keyed
import LayeredConfig.Table

/-!
# Deep merges by path

What stands at a path after a merge depends only on what stands at that path on either side, and on
whether the new value has something else than a table on the way: then the path is cut off.
-/

namespace LayeredConfig

open Keyed (Sorted get? get?_merge)

namespace Value

/-- Whether something else than a table stands on the way to the end of a path. -/
def cuts : Value → List String → Bool
  | _, [] => false
  | .table t, s :: rest =>
    match Keyed.get? s t with
    | some v => v.cuts rest
    | none => false
  | _, _ :: _ => true

mutual

/-- Whether a value is ordered is decided level by level. -/
instance decidableOrdered : (v : Value) → Decidable v.Ordered
  | .array items => decidableOrderedItems items
  | .table entries =>
    have := decidableOrderedEntries entries
    inferInstanceAs (Decidable (Sorted entries ∧ OrderedEntries entries))
  | .null | .bool _ | .int _ | .float _ | .string _ => .isTrue trivial

/-- Whether all items are ordered is decided one by one. -/
instance decidableOrderedItems : (items : List Value) → Decidable (OrderedItems items)
  | [] => .isTrue trivial
  | v :: rest =>
    have := decidableOrdered v
    have := decidableOrderedItems rest
    inferInstanceAs (Decidable (v.Ordered ∧ OrderedItems rest))

/-- Whether all entries are ordered is decided one by one. -/
instance decidableOrderedEntries :
    (entries : List (String × Value)) → Decidable (OrderedEntries entries)
  | [] => .isTrue trivial
  | (_, v) :: rest =>
    have := decidableOrdered v
    have := decidableOrderedEntries rest
    inferInstanceAs (Decidable (v.Ordered ∧ OrderedEntries rest))

end

/-- Every entry of an ordered table is ordered. -/
theorem OrderedEntries.of_mem {t : Table} (h : OrderedEntries t) {e : String × Value}
    (he : e ∈ t) : e.2.Ordered := by
  induction t with
  | nil => simp at he
  | cons e' rest ih =>
    obtain ⟨k, v⟩ := e'
    rcases List.mem_cons.mp he with rfl | he
    · exact h.1
    · exact ih h.2 he

/-- What an ordered table holds under a key is ordered. -/
theorem Ordered.get? {t : Table} (h : (Value.table t).Ordered) {k : String} {v : Value}
    (hv : Keyed.get? k t = some v) : v.Ordered :=
  h.2.of_mem (Keyed.mem_of_get? hv)

/-- A table is ordered if its keys ascend and all that it holds is ordered. -/
theorem ordered_table {t : Table} (hs : Sorted t)
    (h : ∀ k v, Keyed.get? k t = some v → v.Ordered) : (Value.table t).Ordered := by
  refine ⟨hs, ?_⟩
  induction t with
  | nil => exact trivial
  | cons e rest ih =>
    obtain ⟨k, v⟩ := e
    refine ⟨h k v (by rw [Keyed.get?_cons, if_pos rfl]), ih hs.tail ?_⟩
    intro k' w hw
    apply h k' w
    rw [Keyed.get?_cons, if_neg, hw]
    rintro rfl
    rw [hs.get?_tail] at hw
    cases hw

/-- The keys of an ordered table ascend. -/
theorem Ordered.sorted {t : Table} (h : (Value.table t).Ordered) : Sorted t := h.1

/-- The empty path leads to the value itself. -/
theorem descend_nil (v : Value) : v.descend [] = some v := by cases v <;> rfl

/-- A path into a table goes on below its first key. -/
theorem descend_table (t : Table) (s : String) (rest : List String) :
    (Value.table t).descend (s :: rest) = (get? s t).bind (·.descend rest) := by
  rw [descend]
  cases get? s t <;> rfl

/-- A path is followed segment by segment. -/
theorem descend_cons (v : Value) (s : String) (rest : List String) :
    v.descend (s :: rest) = (v.descend [s]).bind (·.descend rest) := by
  cases v with
  | table t =>
    rw [descend_table, descend_table]
    cases Keyed.get? s t with
    | none => rfl
    | some w => rw [Option.bind_some, Option.bind_some, descend_nil, Option.bind_some]
  | _ => rfl

/-- A path is followed in two parts, the second from where the first ends. -/
theorem descend_append (v : Value) (part rest : List String) :
    v.descend (part ++ rest) = (v.descend part).bind (·.descend rest) := by
  induction part generalizing v with
  | nil => rw [List.nil_append, descend_nil, Option.bind_some]
  | cons s part ih =>
    rw [List.cons_append, descend_cons, descend_cons v s part, Option.bind_assoc]
    congr 1
    funext w
    exact ih w

/-- No path leads into a value that is no table. -/
theorem descend_of_not_table {v : Value} (h : v.isTable = false) (s : String)
    (rest : List String) : v.descend (s :: rest) = none := by
  cases v with
  | table t => cases h
  | _ => rfl

/-- What stands in an ordered value is ordered. -/
theorem Ordered.descend {v x : Value} (h : v.Ordered) {path : List String}
    (hx : v.descend path = some x) : x.Ordered := by
  induction path generalizing v with
  | nil =>
    rw [descend_nil] at hx
    exact Option.some.inj hx ▸ h
  | cons s rest ih =>
    cases hv : v.isTable with
    | false =>
      rw [descend_of_not_table hv] at hx
      cases hx
    | true =>
      obtain ⟨t, rfl⟩ := isTable_iff.mp hv
      rw [descend_table] at hx
      obtain ⟨w, hw, hx⟩ := Option.bind_eq_some_iff.mp hx
      exact ih (h.get? hw) hx

/-- A value that is no table cuts every path into it. -/
theorem cuts_of_not_table {v : Value} (h : v.isTable = false) (s : String)
    (rest : List String) : v.cuts (s :: rest) = true := by
  cases v with
  | table t => cases h
  | _ => rfl

/-- A path that is cut off leads nowhere. -/
theorem descend_of_cuts {v : Value} {path : List String} (h : v.cuts path = true) :
    v.descend path = none := by
  induction path generalizing v with
  | nil => cases v <;> cases h
  | cons s rest ih =>
    cases hv : v.isTable with
    | false => exact descend_of_not_table hv s rest
    | true =>
      obtain ⟨t, rfl⟩ := isTable_iff.mp hv
      rw [cuts] at h
      rw [descend_table]
      cases hs : Keyed.get? s t with
      | none => rfl
      | some w =>
        rw [hs] at h
        exact ih h

end Value

namespace Table

/-- A path is a key and then segments below it. -/
theorem at?_eq (t : Table) (first : String) (rest : List String) :
    t.at? first rest = (get? first t).bind (·.descend rest) := by
  rw [at?]
  cases get? first t <;> rfl

/-- A path of one key is the key. -/
theorem at?_nil (t : Table) (key : String) : t.at? key [] = get? key t := by
  rw [at?_eq]
  cases get? key t with
  | none => rfl
  | some v => rw [Option.bind_some, Value.descend_nil]

/-- A path below two keys goes on from what stands under these. -/
theorem at?_cons (t : Table) (first s : String) (rest : List String) :
    t.at? first (s :: rest) = (t.at? first [s]).bind (·.descend rest) := by
  rw [at?_eq, at?_eq, Option.bind_assoc]
  congr 1
  funext v
  exact Value.descend_cons v s rest

/-- A deep merge is a merge of entries. -/
theorem deepMerge_eq_merge (old new : Table) : deepMerge old new = Keyed.merge merged old new := by
  induction new generalizing old with
  | nil => rw [deepMerge]; rfl
  | cons e rest ih =>
    obtain ⟨k, v⟩ := e
    rw [deepMerge, ih]
    rfl

/-- A deep merge changes exactly the keys of the new table. -/
theorem get?_deepMerge (old : Table) {new : Table} (h : Sorted new) (k : String) :
    get? k (deepMerge old new) =
      match get? k new with
      | some v => some (merged (get? k old) v)
      | none => get? k old := by
  rw [deepMerge_eq_merge, get?_merge merged old h]
  cases get? k new <;> rfl

/-- A deep merge keeps the keys in order. -/
theorem sorted_deepMerge {old : Table} (h : Sorted old) (new : Table) :
    Sorted (deepMerge old new) := by
  rw [deepMerge_eq_merge]
  exact h.merge _ _

/-- A value that is no table replaces what was there. -/
theorem merged_of_not_table (o : Option Value) {v : Value} (h : v.isTable = false) :
    merged o v = v := by
  cases v with
  | table t => cases h
  | _ => rfl

/-- Merging into nothing adds the value as it is. -/
theorem merged_none (v : Value) : merged none v = v := by cases v <;> rfl

/-- Whatever is no table is replaced. -/
theorem merged_over {o : Value} (h : o.isTable = false) (v : Value) : merged (some o) v = v := by
  cases v with
  | table t =>
    cases o with
    | table t' => cases h
    | _ => rfl
  | _ => rfl

/-- Two tables are merged in turn. -/
theorem merged_table (old new : Table) :
    merged (some (.table old)) (.table new) = .table (deepMerge old new) := rfl

/-- A merge of anything yields a table exactly if the new value is one. -/
theorem isTable_merged (o : Option Value) (v : Value) : (merged o v).isTable = v.isTable := by
  cases v with
  | table t =>
    cases o with
    | none => rw [merged_none]
    | some w =>
      cases w with
      | table t' => rw [merged_table]; rfl
      | _ => rw [merged_over rfl]
  | _ => rfl

/-- Merging a sorted table into the empty one changes nothing. -/
theorem deepMerge_nil {new : Table} (h : Sorted new) : deepMerge [] new = new := by
  apply (sorted_deepMerge Keyed.sorted_nil new).ext h
  intro k
  rw [get?_deepMerge _ h]
  cases get? k new with
  | none => rfl
  | some v => exact congrArg some (merged_none v)

/-- What a table holds is smaller than the table. -/
theorem sizeOf_lt_of_get? {t : Table} {k : String} {v : Value} (h : get? k t = some v) :
    sizeOf v < sizeOf (Value.table t) := by
  have hm := List.sizeOf_lt_of_mem (Keyed.mem_of_get? h)
  simp only [Prod.mk.sizeOf_spec, Value.table.sizeOf_spec] at hm ⊢
  omega

/-- Merging ordered values yields an ordered value. -/
theorem ordered_merged {o : Option Value} {v : Value} (ho : ∀ w, o = some w → w.Ordered)
    (hv : v.Ordered) : (merged o v).Ordered := by
  cases ht : v.isTable with
  | false =>
    rw [merged_of_not_table o ht]
    exact hv
  | true =>
    obtain ⟨new, rfl⟩ := Value.isTable_iff.mp ht
    cases o with
    | none =>
      rw [merged_none]
      exact hv
    | some w =>
      cases hw : w.isTable with
      | false =>
        rw [merged_over hw]
        exact hv
      | true =>
        obtain ⟨old, rfl⟩ := Value.isTable_iff.mp hw
        have hold : (Value.table old).Ordered := ho _ rfl
        rw [merged_table]
        apply Value.ordered_table (sorted_deepMerge hold.sorted new)
        intro k x hx
        rw [get?_deepMerge old hv.sorted] at hx
        cases hn : get? k new with
        | none =>
          rw [hn] at hx
          exact hold.get? hx
        | some y =>
          rw [hn] at hx
          obtain rfl := Option.some.inj hx
          exact ordered_merged (fun z hz ↦ hold.get? hz) (hv.get? hn)
termination_by sizeOf v
decreasing_by
  subst_vars
  exact sizeOf_lt_of_get? hn

/-- Nothing is empty after a merge unless both sides were. -/
theorem eq_nil_of_deepMerge {old new : Table} (h : Sorted new) (hm : deepMerge old new = []) :
    new = [] := by
  rw [Keyed.eq_nil_iff] at hm ⊢
  intro k
  have hk := hm k
  rw [get?_deepMerge old h] at hk
  cases hn : get? k new with
  | none => rfl
  | some v =>
    rw [hn] at hk
    cases hk

/-- The value at a path after a merge. -/
theorem descend_merged (o : Option Value) {v : Value} (hv : v.Ordered) (path : List String) :
    (merged o v).descend path =
      match v.descend path with
      | some x => some (merged (o.bind (·.descend path)) x)
      | none => if v.cuts path then none else o.bind (·.descend path) := by
  induction path generalizing o v with
  | nil =>
    cases o with
    | none => simp only [Value.descend_nil, Option.bind_none]
    | some w => simp only [Value.descend_nil, Option.bind_some]
  | cons s rest ih =>
    cases hvt : v.isTable with
    | false =>
      rw [merged_of_not_table o hvt, Value.descend_of_not_table hvt,
        Value.cuts_of_not_table hvt]
      rfl
    | true =>
      obtain ⟨new, rfl⟩ := Value.isTable_iff.mp hvt
      have hs : Sorted new := hv.sorted
      rw [Value.descend_table new s rest]
      -- a table is merged into a table only; where there is none it stands alone
      have alone : merged o (.table new) = .table new → o.bind (·.descend (s :: rest)) = none →
          (merged o (.table new)).descend (s :: rest) =
            match (get? s new).bind (·.descend rest) with
            | some x => some (merged (o.bind (·.descend (s :: rest))) x)
            | none => if (Value.table new).cuts (s :: rest) then none
              else o.bind (·.descend (s :: rest)) := by
        intro hm hb
        rw [hm, hb, Value.descend_table]
        cases (get? s new).bind (·.descend rest) with
        | none => simp only [ite_self]
        | some x => simp only [merged_none]
      cases o with
      | none => exact alone (merged_none _) rfl
      | some w =>
        cases hw : w.isTable with
        | false => exact alone (merged_over hw _) (Value.descend_of_not_table hw s rest)
        | true =>
          obtain ⟨inner, rfl⟩ := Value.isTable_iff.mp hw
          rw [merged_table, Value.descend_table, get?_deepMerge _ hs, Option.bind_some,
            Value.descend_table, Value.cuts]
          cases hn : get? s new with
          | none => rfl
          | some w =>
            simp only [Option.bind_some]
            exact ih (get? s inner) (hv.get? hn)

end Table

end LayeredConfig
