import LayeredConfig.Proofs.Nested
import Mathlib.Data.List.Induction

/-!
# Merges at every path

Where the new table of a merge holds something, this stands there, merged into what stood there if both
are tables. Where it holds nothing, the longest part of the path that leads somewhere in the new table
decides: below two tables, or where there is no such part, everything stays, and below anything else
nothing does. A second merge of the same table changes nothing.
-/

namespace LayeredConfig

open Keyed (Sorted get?)

namespace Value

/-- A table stands at the end of a path. -/
def HasTable (v : Value) (path : List String) : Prop := ∃ t, v.descend path = some (.table t)

/-- The longest part of a path, from its first key on, that leads somewhere in a value. -/
structure Reaches (v : Value) (path part : List String) : Prop where
  ne_nil : part ≠ []
  begins : part <+: path
  found : (v.descend part).isSome = true
  longest : ∀ other, other <+: path → (v.descend other).isSome = true → other <+: part

variable {v x : Value} {path part : List String}

private theorem none_or_reaches (v : Value) (path : List String) :
    (∀ part, part ≠ [] → part <+: path → v.descend part = none) ∨ ∃ part, v.Reaches path part := by
  induction path using List.reverseRecOn with
  | nil => exact Or.inl fun part hn hp ↦ absurd (List.prefix_nil.mp hp) hn
  | append_singleton path s ih =>
    cases hs : v.descend (path ++ [s]) with
    | some x =>
      refine Or.inr ⟨path ++ [s], by simp, List.prefix_rfl, by rw [hs]; rfl, ?_⟩
      exact fun other ho _ ↦ ho
    | none =>
      rcases ih with hnone | ⟨part, h⟩
      · refine Or.inl fun part hn hp ↦ ?_
        rcases List.prefix_concat_iff.mp hp with rfl | hp
        · exact hs
        · exact hnone part hn hp
      · refine Or.inr ⟨part, h.ne_nil, h.begins.trans (List.prefix_append _ _), h.found, ?_⟩
        intro other ho hf
        rcases List.prefix_concat_iff.mp ho with rfl | ho
        · rw [hs] at hf
          cases hf
        · exact h.longest other ho hf

private theorem reaches_concat {s : String} (hn : part ≠ []) (hf : (v.descend part).isSome = true)
    (hs : v.descend (part ++ [s]) = none) : v.Reaches (part ++ [s]) part where
  ne_nil := hn
  begins := List.prefix_append _ _
  found := hf
  longest := by
    intro other ho hfound
    rcases List.prefix_concat_iff.mp ho with rfl | ho
    · rw [hs] at hfound
      cases hfound
    · exact ho

private theorem cuts_append (h : v.descend part = some x) (rest : List String) :
    v.cuts (part ++ rest) = x.cuts rest := by
  induction part generalizing v with
  | nil =>
    rw [descend_nil] at h
    rw [Option.some.inj h, List.nil_append]
  | cons s part ih =>
    cases hv : v.isTable with
    | false =>
      rw [descend_of_not_table hv] at h
      cases h
    | true =>
      obtain ⟨t, rfl⟩ := isTable_iff.mp hv
      rw [descend_table] at h
      obtain ⟨w, hw, h⟩ := Option.bind_eq_some_iff.mp h
      rw [List.cons_append, cuts, hw]
      exact ih h

private theorem Reaches.cuts_eq (h : v.Reaches path part) (hx : v.descend part = some x)
    (hn : v.descend path = none) : v.cuts path = !x.isTable := by
  obtain ⟨rest, rfl⟩ := h.begins
  rw [cuts_append hx]
  cases rest with
  | nil =>
    rw [List.append_nil, hx] at hn
    cases hn
  | cons s rest =>
    cases ht : x.isTable with
    | false => exact cuts_of_not_table ht s rest
    | true =>
      obtain ⟨inner, rfl⟩ := isTable_iff.mp ht
      rw [cuts]
      cases hs : get? s inner with
      | none => rfl
      | some w =>
        -- the part with one more key leads somewhere too
        have hlonger : v.descend (part ++ [s]) = some w := by
          rw [descend_append, hx, Option.bind_some, descend_table, hs, Option.bind_some, descend_nil]
        have hp := h.longest (part ++ [s]) ⟨rest, by simp⟩ (by rw [hlonger]; rfl)
        exact absurd hp.length_le (by simp)

private theorem cuts_eq_false {t : Table} (h : ∀ part, ¬ (Value.table t).Reaches path part) :
    (Value.table t).cuts path = false := by
  cases path with
  | nil => rfl
  | cons first rest =>
    have hnone := (none_or_reaches (.table t) (first :: rest)).resolve_right (not_exists.mpr h)
    have hf := hnone [first] (List.cons_ne_nil _ _) ⟨rest, rfl⟩
    rw [descend_table] at hf
    rw [cuts]
    cases hg : get? first t with
    | none => rfl
    | some w =>
      rw [hg, Option.bind_some, descend_nil] at hf
      cases hf

private theorem descend_eq_none_of_not_hasTable (h : ¬ v.HasTable part) {s : String}
    (rest : List String) : v.descend (part ++ s :: rest) = none := by
  rw [descend_append]
  cases hx : v.descend part with
  | none => rfl
  | some x =>
    cases ht : x.isTable with
    | false => exact descend_of_not_table ht s rest
    | true =>
      obtain ⟨t, rfl⟩ := isTable_iff.mp ht
      exact absurd ⟨t, hx⟩ h

end Value

namespace Table

/-- What stands at the end of a path when one table was merged into another. -/
structure MergedAt (old new result : Table) (path : List String) : Prop where
  /-- Something else than a table replaces what stood there. -/
  replaced : ∀ x, (Value.table new).descend path = some x → x.isTable = false →
    (Value.table result).descend path = some x
  /-- Two tables are merged. -/
  merged : ∀ inner incoming, (Value.table old).descend path = some (.table inner) →
    (Value.table new).descend path = some (.table incoming) →
      (Value.table result).descend path = some (.table (deepMerge inner incoming))
  /-- Where no table stood, a table comes as it is. -/
  added : ∀ incoming, ¬ (Value.table old).HasTable path →
    (Value.table new).descend path = some (.table incoming) →
      (Value.table result).descend path = some (.table incoming)
  /-- Where no part of the path leads anywhere in the new table, nothing changes. -/
  untouched : (Value.table new).descend path = none →
    (∀ part, ¬ (Value.table new).Reaches path part) →
      (Value.table result).descend path = (Value.table old).descend path
  /-- Nothing changes below two tables either. -/
  below : ∀ part, (Value.table new).descend path = none → (Value.table new).Reaches path part →
    (Value.table old).HasTable part → (Value.table new).HasTable part →
      (Value.table result).descend path = (Value.table old).descend path
  /-- Below anything else nothing is left. -/
  cut : ∀ part, (Value.table new).descend path = none → (Value.table new).Reaches path part →
    ¬ ((Value.table old).HasTable part ∧ (Value.table new).HasTable part) →
      (Value.table result).descend path = none

private theorem merged_below (old : Table) (key : String) {new : Table} (h : Sorted new) :
    merged (get? key old) (.table new) = .table (deepMerge (old.below key) new) := by
  rw [below]
  cases get? key old with
  | none => rw [merged_none, Option.bind_none, Option.getD_none, deepMerge_nil h]
  | some w =>
    cases w with
    | table old => rfl
    | _ => exact (merged_over rfl _).trans (congrArg Value.table (deepMerge_nil h).symm)

/-- Merging a table a second time changes nothing. -/
theorem deepMerge_again {old new : Table} (ho : (Value.table old).Ordered)
    (hn : (Value.table new).Ordered) : deepMerge (deepMerge old new) new = deepMerge old new := by
  have hs := sorted_deepMerge ho.sorted new
  apply (sorted_deepMerge hs new).ext hs
  intro key
  rw [get?_deepMerge _ hn.sorted, get?_deepMerge _ hn.sorted]
  cases hx : get? key new with
  | none => rfl
  | some x =>
    dsimp only
    rw [Option.some.injEq]
    cases ht : x.isTable with
    | false => rw [merged_of_not_table _ ht, merged_of_not_table _ ht]
    | true =>
      obtain ⟨incoming, rfl⟩ := Value.isTable_iff.mp ht
      have hincoming : (Value.table incoming).Ordered := hn.get? hx
      have hinner : (Value.table (old.below key)).Ordered := ho.below key
      rw [merged_below old key hincoming.sorted, merged_table, deepMerge_again hinner hincoming]
termination_by sizeOf (Value.table new)
decreasing_by
  subst_vars
  exact sizeOf_lt_of_get? hx

/-- At the end of every path a merge holds what the two tables say, and merging the new table a second
time changes nothing. -/
theorem mergedAt_deepMerge {old new : Table} (ho : (Value.table old).Ordered)
    (hn : (Value.table new).Ordered) :
    (∀ path, MergedAt old new (deepMerge old new) path) ∧
      deepMerge (deepMerge old new) new = deepMerge old new := by
  refine ⟨fun path ↦ ?_, deepMerge_again ho hn⟩
  have hpath := descend_merged (some (.table old)) hn path
  rw [merged_table, Option.bind_some] at hpath
  have hnone : (Value.table new).descend path = none →
      (Value.table (deepMerge old new)).descend path =
        if (Value.table new).cuts path then none else (Value.table old).descend path := by
    intro hx
    rw [hpath, hx]
  exact
    { replaced := by
        intro x hx ht
        rw [hpath, hx]
        exact congrArg some (merged_of_not_table _ ht)
      merged := by
        intro inner incoming hinner hincoming
        rw [hpath, hincoming, hinner]
        rfl
      added := by
        intro incoming hold hincoming
        rw [hpath, hincoming]
        cases hw : (Value.table old).descend path with
        | none => exact congrArg some (merged_none _)
        | some w =>
          have ht : w.isTable = false := by
            rw [Bool.eq_false_iff]
            intro ht
            obtain ⟨inner, rfl⟩ := Value.isTable_iff.mp ht
            exact hold ⟨inner, hw⟩
          exact congrArg some (merged_over ht _)
      untouched := by
        intro hx hpart
        rw [hnone hx, Value.cuts_eq_false hpart, if_neg Bool.false_ne_true]
      below := by
        rintro part hx hpart - ⟨t, ht⟩
        rw [hnone hx, hpart.cuts_eq ht hx]
        rfl
      cut := by
        intro part hx hpart hboth
        rw [hnone hx]
        split
        · rfl
        · next hcut =>
          -- the part ends at a table of the new one, so at none of the old
          obtain ⟨y, hy⟩ := Option.isSome_iff_exists.mp hpart.found
          have ht : y.isTable = true := by simpa [hpart.cuts_eq hy hx] using hcut
          obtain ⟨t, rfl⟩ := Value.isTable_iff.mp ht
          obtain ⟨rest, rfl⟩ := hpart.begins
          cases rest with
          | nil =>
            rw [List.append_nil, hy] at hx
            cases hx
          | cons s rest =>
            exact Value.descend_eq_none_of_not_hasTable (fun h ↦ hboth ⟨h, t, hy⟩) rest }

/-- A port replaces a table with a host, which is gone, and a mode is merged into a proxy whose host
stays. -/
theorem mergedAt_deepMerge_proxy :
    let old : Table :=
      [("port", .table [("host", .string "h")]), ("proxy", .table [("host", .string "p")])]
    let new : Table := [("port", .int 1), ("proxy", .table [("mode", .string "m")])]
    (Value.table old).Ordered ∧ (Value.table new).Ordered ∧
      (Value.table (deepMerge old new)).descend ["port", "host"] = none ∧
      (Value.table (deepMerge old new)).descend ["proxy", "host"] = some (.string "p") ∧
      deepMerge (deepMerge old new) new = deepMerge old new := by
  intro old new
  have ho : (Value.table old).Ordered := by decide
  have hn : (Value.table new).Ordered := by decide
  obtain ⟨hpaths, hagain⟩ := mergedAt_deepMerge ho hn
  have hport : (Value.table new).Reaches (["port"] ++ ["host"]) ["port"] :=
    Value.reaches_concat (List.cons_ne_nil _ _) rfl rfl
  have hproxy : (Value.table new).Reaches (["proxy"] ++ ["host"]) ["proxy"] :=
    Value.reaches_concat (List.cons_ne_nil _ _) rfl rfl
  refine ⟨ho, hn, ?_, ?_, hagain⟩
  · refine (hpaths ["port", "host"]).cut ["port"] rfl hport ?_
    rintro ⟨-, t, ht⟩
    cases ht
  · exact (hpaths ["proxy", "host"]).below ["proxy"] rfl hproxy ⟨_, rfl⟩ ⟨_, rfl⟩

end Table

end LayeredConfig
