import LayeredConfig.Proofs.Supply

/-!
# Steps of a merge

What the operations on layers do with one answer, by look-ups: which general parameters it has, which
of them go into a record, and what a record holds once its own fields are merged in.
-/

namespace LayeredConfig

open Keyed (Sorted get?)

/-! ### General parameters of one answer -/

/-- The general parameters of a root come first in its split. -/
theorem Table.splitGeneral_eq (root : Table) :
    Table.splitGeneral root = (root.filter isGeneral, root.filter fun e ↦ !isGeneral e) := by
  rw [Table.splitGeneral, List.partition_eq_filter_filter]
  rfl

/-- Merging all but the general parameters and then these is merging the whole. -/
theorem Table.deepMerge_split {old : Table} (ho : Sorted old) {new : Table} (hn : Sorted new) :
    Table.deepMerge (Table.deepMerge old (new.filter fun e ↦ !isGeneral e)) (new.filter isGeneral) =
      Table.deepMerge old new := by
  apply (sorted_deepMerge (sorted_deepMerge ho _) _).ext (sorted_deepMerge ho _)
  intro key
  rw [get?_deepMerge _ (hn.filter _), get?_deepMerge _ (hn.filter _), get?_deepMerge _ hn,
    hn.get?_filter, hn.get?_filter]
  cases get? key new with
  | none => rfl
  | some v =>
    rw [Option.filter_some, Option.filter_some]
    cases isGeneral (key, v) with
    | true => rfl
    | false => rfl

namespace Layers

/-- Candidates of the general parameters are candidates of the root. -/
theorem candidates_general (r : Report) (root : Table) :
    candidates r (root.filter isGeneral) = candidates r root := by
  rw [candidates, List.filter_filter]
  simp only [Bool.and_self]
  rfl

/-- The candidate under a key is that of the general parameter there. -/
theorem get?_candidates {a : Answer} (h : a.Ordered) (key : String) :
    get? key ((candidates a.report a.config.root).map fun c ↦ (c.key, c)) =
      (a.general? key).map (a.report.candidate key) := by
  have hc : ((candidates a.report a.config.root).map fun c ↦ (c.key, c)) =
      (a.config.root.filter isGeneral).map fun e ↦ (e.1, a.report.candidate e.1 e.2) := by
    rw [candidates, List.map_map]
    rfl
  rw [hc, Keyed.get?_map key a.report.candidate, h.sorted_root.get?_filter]
  rfl

/-- The candidates of a root are sorted by key. -/
theorem sorted_candidates {a : Answer} (h : a.Ordered) :
    Sorted ((candidates a.report a.config.root).map fun c ↦ (c.key, c)) := by
  rw [candidates, List.map_map]
  exact (h.sorted_root.filter _).map a.report.candidate

/-- Which general parameters go into a record, by key. -/
theorem applicable_eq (r : Report) (root record : Table) (filled : List (String × String))
    (name : String) :
    applicable filled name record (candidates r root) =
      (root.filter fun e ↦ isGeneral e &&
        (!Keyed.contains e.1 record || filled.contains (name, e.1))).map
          fun e ↦ r.candidate e.1 e.2 := by
  rw [applicable, candidates, List.filter_map, List.filter_filter]
  congr 1
  apply List.filter_congr
  intro e _
  exact Bool.and_comm _ _

/-- A field of a record after general parameters were put into it. -/
theorem get?_fill {a : Answer} (h : a.Ordered) (record : Table)
    (filled : List (String × String)) (name key : String) :
    get? key (fill record (applicable filled name record
        (candidates a.report a.config.root))) =
      if Keyed.contains key record = false ∨ (name, key) ∈ filled then
        (a.general? key).or (get? key record)
      else get? key record := by
  have hs := h.sorted_root
  have hm : ((applicable filled name record (candidates a.report a.config.root)).map
      fun c ↦ (c.key, c.value)) = a.config.root.filter fun e ↦ isGeneral e &&
        (!Keyed.contains e.1 record || filled.contains (name, e.1)) := by
    rw [applicable_eq, List.map_map]
    exact List.map_id' _
  rw [fill, hm, Keyed.get?_overlay _ (hs.filter _), hs.get?_filter, Answer.general?, Answer.root?]
  by_cases hf : Keyed.contains key record = false ∨ (name, key) ∈ filled
  · have hb : (!Keyed.contains key record || filled.contains (name, key)) = true := by
      simpa using hf
    simp only [hb, Bool.and_true, if_pos hf]
  · have hb : (!Keyed.contains key record || filled.contains (name, key)) = false := by
      simpa using hf
    simp only [hb, Bool.and_false, if_neg hf]
    cases get? key a.config.root <;> rfl

/-- The candidates that go into a record are those of the general parameters with room for them. -/
theorem mem_applicable {a : Answer} (h : a.Ordered) {record : Table}
    {filled : List (String × String)} {name : String} {c : Candidate} :
    c ∈ applicable filled name record (candidates a.report a.config.root) ↔
      ∃ key v, a.general? key = some v ∧ c = a.report.candidate key v ∧
        (Keyed.contains key record = false ∨ (name, key) ∈ filled) := by
  rw [applicable_eq, List.mem_map]
  constructor
  · rintro ⟨⟨key, v⟩, hm, rfl⟩
    obtain ⟨hm, hp⟩ := List.mem_filter.mp hm
    obtain ⟨hg, hf⟩ := Bool.and_eq_true_iff.mp hp
    refine ⟨key, v, ?_, rfl, by simpa using hf⟩
    exact Option.filter_eq_some_iff.mpr ⟨h.sorted_root.mem_iff.mp hm, hg⟩
  · rintro ⟨key, v, hg, rfl, hf⟩
    obtain ⟨hr, hg⟩ := Option.filter_eq_some_iff.mp hg
    refine ⟨(key, v), List.mem_filter.mpr ⟨h.sorted_root.mem_iff.mpr hr, ?_⟩, rfl⟩
    exact Bool.and_eq_true_iff.mpr ⟨hg, by simpa using hf⟩

/-- Merging records is a merge. -/
theorem get?_mergeRecords (connections : Keyed Table) {a : Answer} (h : a.Ordered)
    (name : String) :
    get? name (a.config.connections.foldl mergeRecord connections) =
      match a.record? name with
      | some fields => some (Table.deepMerge ((get? name connections).getD []) fields)
      | none => get? name connections := by
  have hm : a.config.connections.foldl mergeRecord connections =
      Keyed.merge (fun o fields ↦ Table.deepMerge (o.getD []) fields) connections
        a.config.connections := rfl
  rw [hm, Keyed.get?_merge _ _ h.sorted_connections, Answer.record?]
  cases get? name a.config.connections <;> rfl

end Layers

end LayeredConfig
