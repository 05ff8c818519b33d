import LayeredConfig.Proofs.DeepMerge

/-!
# Merging one value after the other

Values that are merged in turn overwrite what stood there first, path by path: where one of them has
something, and where one cuts the path off. They overwrite the whole exactly if no path into it is
left out.
-/

namespace LayeredConfig

open Keyed (Sorted get?)

/-- A value says what stands at the end of a path: something, or nothing because the path is cut
off. -/
def Value.Overwrites (v : Value) (path : List String) : Prop :=
  v.descend path ≠ none ∨ v.cuts path = true

namespace Table

/-- Values merged in turn into what stands there, if anything does. -/
def mergeAll (o : Option Value) (values : List Value) : Option Value :=
  values.foldl (fun o v ↦ some (merged o v)) o

variable {o : Option Value} {v : Value} {values : List Value} {path : List String}

/-- One more value is merged into the others. -/
theorem mergeAll_concat (o : Option Value) (values : List Value) (v : Value) :
    mergeAll o (values ++ [v]) = some (merged (mergeAll o values) v) := by
  rw [mergeAll, List.foldl_append]
  rfl

/-- A path that no value overwrites ends where it did. -/
theorem descend_mergeAll (hv : ∀ v ∈ values, v.Ordered)
    (hk : ∀ v ∈ values, ¬ v.Overwrites path) :
    (mergeAll o values).bind (·.descend path) = o.bind (·.descend path) := by
  induction values generalizing o with
  | nil => rfl
  | cons v rest ih =>
    obtain ⟨hd, hc⟩ := not_or.mp (hk v List.mem_cons_self)
    have ih := ih (o := some (merged o v)) (fun w hw ↦ hv w (List.mem_cons_of_mem _ hw))
      fun w hw ↦ hk w (List.mem_cons_of_mem _ hw)
    calc (mergeAll o (v :: rest)).bind (·.descend path)
      _ = (merged o v).descend path := ih
      _ = o.bind (·.descend path) := by
        rw [descend_merged o (hv v List.mem_cons_self), not_not.mp hd]
        exact if_neg hc

/-- Where nothing stood and no value has anything, nothing stands. -/
theorem descend_mergeAll_eq_none (hv : ∀ v ∈ values, v.Ordered)
    (ho : o.bind (·.descend path) = none) (hn : ∀ v ∈ values, v.descend path = none) :
    (mergeAll o values).bind (·.descend path) = none := by
  induction values generalizing o with
  | nil => exact ho
  | cons v rest ih =>
    apply ih (fun w hw ↦ hv w (List.mem_cons_of_mem _ hw)) _
      fun w hw ↦ hn w (List.mem_cons_of_mem _ hw)
    rw [Option.bind_some, descend_merged o (hv v List.mem_cons_self), hn v List.mem_cons_self]
    dsimp only
    rw [ho, ite_self]

private theorem mergeAll_of_not_table (hm : v ∈ values) (ht : v.isTable = false)
    (o o' : Option Value) : mergeAll o values = mergeAll o' values := by
  obtain ⟨before, after, rfl⟩ := List.append_of_mem hm
  rw [mergeAll, mergeAll, List.foldl_append, List.foldl_append, List.foldl_cons, List.foldl_cons,
    merged_of_not_table _ ht, merged_of_not_table _ ht]

private theorem mergeAll_tables (t : Table) (tables : List Table) :
    mergeAll (some (.table t)) (tables.map .table) = some (.table (tables.foldl deepMerge t)) := by
  induction tables generalizing t with
  | nil => rfl
  | cons new rest ih => exact ih (deepMerge t new)

private theorem sorted_foldl {t : Table} (ht : Sorted t) (tables : List Table) :
    Sorted (tables.foldl deepMerge t) := by
  induction tables generalizing t with
  | nil => exact ht
  | cons new rest ih => exact ih (sorted_deepMerge ht new)

private theorem get?_foldl (t : Table) {tables : List Table} (h : ∀ t ∈ tables, Sorted t)
    (k : String) :
    get? k (tables.foldl deepMerge t) = mergeAll (get? k t) (tables.filterMap (get? k)) := by
  induction tables generalizing t with
  | nil => rfl
  | cons new rest ih =>
    rw [List.foldl_cons, ih _ fun t ht ↦ h t (List.mem_cons_of_mem _ ht),
      get?_deepMerge _ (h new List.mem_cons_self)]
    cases hn : get? k new with
    | none => rw [List.filterMap_cons_none hn]
    | some w => rw [List.filterMap_cons_some hn]; rfl

private theorem exists_tables (h : ∀ v ∈ values, v.isTable = true) :
    ∃ tables : List Table, values = tables.map .table := by
  induction values with
  | nil => exact ⟨[], rfl⟩
  | cons v rest ih =>
    obtain ⟨t, rfl⟩ := Value.isTable_iff.mp (h v List.mem_cons_self)
    obtain ⟨tables, rfl⟩ := ih fun w hw ↦ h w (List.mem_cons_of_mem _ hw)
    exact ⟨t :: tables, rfl⟩

private theorem mergeAll_over {x : Value} (hx : x.isTable = false) (hn : values ≠ []) :
    mergeAll (some x) values = mergeAll none values := by
  obtain ⟨first, rest, rfl⟩ := List.exists_cons_of_ne_nil hn
  change mergeAll (some (merged (some x) first)) rest = mergeAll (some (merged none first)) rest
  rw [merged_over hx, merged_none]

private theorem mergeAll_of_keys {t : Table} (ht : Sorted t) {tables : List Table}
    (hs : ∀ t ∈ tables, Sorted t) (hn : tables ≠ [])
    (h : ∀ k, mergeAll (get? k t) (tables.filterMap (get? k)) =
      mergeAll none (tables.filterMap (get? k))) :
    mergeAll (some (.table t)) (tables.map .table) = mergeAll none (tables.map .table) := by
  have hnil : mergeAll none (tables.map .table) =
      mergeAll (some (.table [])) (tables.map .table) := by
    obtain ⟨first, rest, rfl⟩ := List.exists_cons_of_ne_nil hn
    change mergeAll (some (merged none (.table first))) (rest.map .table) =
      mergeAll (some (.table (deepMerge [] first))) (rest.map .table)
    rw [merged_none, deepMerge_nil (hs first List.mem_cons_self)]
  rw [hnil, mergeAll_tables, mergeAll_tables]
  congr 2
  apply (sorted_foldl ht tables).ext (sorted_foldl Keyed.sorted_nil tables)
  intro k
  rw [get?_foldl t hs, get?_foldl [] hs, Keyed.get?_nil, h k]

private theorem mergeAll_of_overwritten {x : Value} {values : List Value} (hx : x.Ordered)
    (hv : ∀ v ∈ values, v.Ordered)
    (h : ∀ path, x.descend path ≠ none → ∃ v ∈ values, v.Overwrites path) :
    mergeAll (some x) values = mergeAll none values := by
  have hn : values ≠ [] := by
    obtain ⟨v, hm, -⟩ := h [] (by rw [Value.descend_nil]; exact Option.some_ne_none x)
    exact List.ne_nil_of_mem hm
  by_cases hall : ∀ v ∈ values, v.isTable = true
  · cases hxt : x.isTable with
    | false => exact mergeAll_over hxt hn
    | true =>
      obtain ⟨t, rfl⟩ := Value.isTable_iff.mp hxt
      obtain ⟨tables, rfl⟩ := exists_tables hall
      apply mergeAll_of_keys hx.sorted (fun new hm ↦ (hv _ (List.mem_map_of_mem hm)).sorted)
        (fun he ↦ hn (congrArg _ he))
      intro k
      cases hk : get? k t with
      | none => rfl
      | some y =>
        -- the paths into what stands under a key are those of the table, without the key
        apply mergeAll_of_overwritten (hx.get? hk)
        · intro w hw
          obtain ⟨new, hnew, hget⟩ := List.mem_filterMap.mp hw
          exact (hv _ (List.mem_map_of_mem hnew)).get? hget
        · intro path hy
          obtain ⟨w, hw, ho⟩ := h (k :: path) (by rwa [Value.descend_table, hk])
          obtain ⟨new, hnew, rfl⟩ := List.mem_map.mp hw
          rw [Value.Overwrites, Value.descend_table, Value.cuts] at ho
          cases hget : get? k new with
          | none => simp [hget] at ho
          | some z =>
            rw [hget] at ho
            exact ⟨z, List.mem_filterMap.mpr ⟨new, hnew, hget⟩, ho⟩
  · push Not at hall
    obtain ⟨v, hm, ht⟩ := hall
    exact mergeAll_of_not_table hm (Bool.eq_false_iff.mpr ht) _ _
termination_by sizeOf x
decreasing_by
  subst_vars
  exact sizeOf_lt_of_get? hk

/-- What stands there first makes no difference exactly if every path into it is overwritten. -/
theorem mergeAll_eq_iff (ho : ∀ x, o = some x → x.Ordered) (hv : ∀ v ∈ values, v.Ordered) :
    mergeAll o values = mergeAll none values ↔
      ∀ path, o.bind (·.descend path) ≠ none → ∃ v ∈ values, v.Overwrites path := by
  constructor
  · intro he path hpath
    by_contra hn
    push Not at hn
    have hsame : (mergeAll o values).bind (·.descend path) =
        (mergeAll none values).bind (·.descend path) := by rw [he]
    rw [descend_mergeAll hv hn, descend_mergeAll hv hn] at hsame
    exact hpath hsame
  · intro h
    cases o with
    | none => rfl
    | some x => exact mergeAll_of_overwritten (ho x rfl) hv h

end Table

end LayeredConfig
