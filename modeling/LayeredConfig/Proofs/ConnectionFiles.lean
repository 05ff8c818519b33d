import LayeredConfig.Proofs.FileCalls
import LayeredConfig.Proofs.Nested
import Mathlib

/-!
# Files of connections

In a file of connections the tables become connections and everything else stays at the root, unless
something else than a table has the key that the connections are about to have.
-/

namespace LayeredConfig

open Keyed (Sorted)

/-- What of a table is no table. -/
def Table.plain (t : Table) : Table := t.filter fun e ↦ !e.2.isTable

/-- The tables in a table, by their keys. -/
def Table.inner (t : Table) : Keyed Table := t.filterMap fun e ↦ e.2.table?.map fun r ↦ (e.1, r)

private theorem Keyed.erase_insert {α : Type} (k : String) (a : α) (m : Keyed α) :
    erase k (insert k a m) = erase k m := by
  induction m with
  | nil => exact if_pos rfl
  | cons e rest ih =>
    obtain ⟨k', a'⟩ := e
    rw [insert]
    split
    · rw [erase, if_pos rfl]
    · split
      · next hk =>
        rw [erase, erase, if_pos rfl, if_pos hk]
      · next hk =>
        rw [erase, erase, if_neg hk, if_neg hk, ih]

private theorem Keyed.erase_of_none {α : Type} {k : String} {m : Keyed α} (h : get? k m = none) :
    erase k m = m := by
  rw [erase_eq_filter, List.filter_eq_self]
  rintro e he
  rw [decide_eq_true_eq]
  rintro rfl
  have hsome := isSome_get?_of_mem he
  rw [h] at hsome
  cases hsome

private theorem Toml.sorted_of_read {text : String} {t : Table} (h : Toml.read text = .ok t) :
    Sorted t := by
  rw [Toml.read] at h
  cases hb : readTree text with
  | error e =>
    rw [hb] at h
    cases h
  | ok b =>
    rw [hb] at h
    cases he : readEntries b with
    | error rule =>
      simp only [bind, Except.bind, he] at h
      cases h
    | ok entries =>
      simp only [bind, Except.bind, he] at h
      rw [← Except.ok.inj h]
      exact Keyed.sorted_ofList entries

namespace Layout

variable {t : Table}

private theorem filter_isTable (t : Table) :
    t.filter (fun e ↦ e.2.isTable) = Table.ofRecords t.inner := by
  induction t with
  | nil => rfl
  | cons e rest ih =>
    obtain ⟨key, v⟩ := e
    cases v with
    | table r => exact congrArg ((key, Value.table r) :: ·) ih
    | _ => exact ih

private theorem ofNested_gather (t : Table) :
    Config.ofNested (gather t) =
      match Keyed.get? connectionsKey t.plain, t.inner with
      | some v, [] => .error (.branch v.kind)
      | _, records =>
        .ok { root := Keyed.erase connectionsKey t.plain, connections := records } := by
  rw [gather, filter_isTable, ← Table.plain]
  cases hi : t.inner with
  | nil =>
    have hempty : (Table.ofRecords []).isEmpty = true := rfl
    rw [hempty, if_pos rfl, Config.ofNested]
    cases hv : Keyed.get? connectionsKey t.plain with
    | none => rfl
    | some v =>
      have hplain := (List.mem_filter.mp (Keyed.mem_of_get? hv)).2
      cases v with
      | table r => cases hplain
      | _ => rfl
  | cons e rest =>
    have hne : (Table.ofRecords (e :: rest)).isEmpty = false := rfl
    rw [hne, if_neg Bool.false_ne_true, Config.ofNested, Keyed.get?_insert_self]
    dsimp only
    rw [Table.records_ofRecords, Keyed.erase_insert]
    cases Keyed.get? connectionsKey t.plain <;> rfl

end Layout

namespace FileSource

variable {w : World} {path text : String} {policy : Policy} {n : Node} {t : Table}

/-- A file whose text is read in its layout is answered. -/
theorem discover_of_read (name : String) {layout : Layout} (hn : w.files.find path = .ok n)
    (hskip : ¬ (policy = .skip ∧ n.isOpen = true)) (htext : n.text = .ok text)
    (ht : layout.read text = .ok t) :
    (discover { name, path, layout, policy } w none).1 = .ok t := by
  have hfound : finding { name, path, layout, policy } w = .legible t := by
    rw [finding, hn]
    dsimp only
    rw [if_neg hskip, htext]
    dsimp only
    rw [ht]
  rw [discover_answer, hfound]
  rfl

/-- A file of connections that is read as a table is answered in nested form. -/
theorem discover_gather (name : String) (hn : w.files.find path = .ok n)
    (hskip : ¬ (policy = .skip ∧ n.isOpen = true)) (htext : n.text = .ok text)
    (ht : Toml.read text = .ok t) :
    (discover { name, path, layout := .connectionsOnly, policy } w none).1 =
      .ok (Layout.gather t) := by
  apply discover_of_read name hn hskip htext
  rw [Layout.read, ht]
  rfl

/-- A file of connections that is read as a table is a configuration with its tables as connections
and all else at the root, exactly if there is nothing else than a table under the key of the
connections. Such a value is lost if there are connections, and is refused in their place if there
are none. -/
theorem discover_connections (name path : String) (policy : Policy) (w : World)
    (hn : w.files.find path = .ok n) (hskip : ¬ (policy = .skip ∧ n.isOpen = true))
    (htext : n.text = .ok text) (ht : Toml.read text = .ok t) :
    ∃ m, (discover { name, path, layout := .connectionsOnly, policy } w none).1 = .ok m ∧
      (Config.ofNested m = .ok { root := t.plain, connections := t.inner } ↔
        ∀ v, Keyed.get? connectionsKey t = some v → v.isTable = true) ∧
      ∀ v, Keyed.get? connectionsKey t = some v → v.isTable = false →
        Config.ofNested m =
          if t.inner.isEmpty then .error (.branch v.kind)
          else .ok { root := Keyed.erase connectionsKey t.plain, connections := t.inner } := by
  refine ⟨Layout.gather t, discover_gather name hn hskip htext ht, ?_⟩
  have hplain : Keyed.get? connectionsKey t.plain =
      (Keyed.get? connectionsKey t).filter fun v ↦ !v.isTable :=
    (Toml.sorted_of_read ht).get?_filter (fun e ↦ !e.2.isTable) connectionsKey
  rw [Layout.ofNested_gather]
  by_cases hv : ∃ v, Keyed.get? connectionsKey t = some v ∧ v.isTable = false
  · obtain ⟨v, hv, hnot⟩ := hv
    rw [hv, Option.filter_some, hnot, Bool.not_false, if_pos rfl] at hplain
    rw [hplain, hv]
    constructor
    · refine iff_of_false ?_ fun h ↦ Bool.false_ne_true (hnot.symm.trans (h v rfl))
      intro h
      have hroot : Keyed.erase connectionsKey t.plain = t.plain := by
        cases hi : t.inner with
        | nil =>
          rw [hi] at h
          cases h
        | cons e rest =>
          rw [hi] at h
          exact congrArg Config.root (Except.ok.inj h)
      rw [← hroot, Keyed.get?_erase, if_pos rfl] at hplain
      cases hplain
    · rintro v' hv' -
      obtain rfl := Option.some.inj hv'
      cases t.inner <;> rfl
  · have hnone : Keyed.get? connectionsKey t.plain = none := by
      rw [hplain, Option.filter_eq_none_iff]
      intro v hv' hnot
      exact hv ⟨v, hv', by simpa using hnot⟩
    have hall : ∀ v, Keyed.get? connectionsKey t = some v → v.isTable = true := fun v hv' ↦
      by_contra fun hnot ↦ hv ⟨v, hv', Bool.eq_false_iff.mpr hnot⟩
    rw [hnone, Keyed.erase_of_none hnone]
    exact ⟨iff_of_true rfl hall, fun v hv' hnot ↦ absurd ⟨v, hv', hnot⟩ hv⟩

/-- Surroundings with one file. -/
def withFile (text : String) : World := { files := ⟨[(["c"], .file 0o600 text.toUTF8)]⟩ }

/-- The file is found. -/
theorem find_withFile (text : String) :
    (withFile text).files.find "c" = .ok (.file 0o600 text.toUTF8) := by
  rw [withFile]
  cbv

/-- With a policy that only warns no file is skipped. -/
theorem not_skipped {n : Node} : ¬ (Policy.warn = .skip ∧ n.isOpen = true) := by
  rintro ⟨⟨⟩, -⟩

/-- Tables of a file become connections, and a scalar beside them stays at the root. -/
theorem discover_connections_dev :
    ∃ m, (discover { name := "base", path := "c", layout := .connectionsOnly }
          (withFile "theme = 'd'\n[dev]\nuser = 'u'\n") none).1 = .ok m ∧
      Config.ofNested m =
        .ok {
          root := [("theme", .string "d")]
          connections := [("dev", [("user", .string "u")])] } := by
  have htext : (Node.file 0o600 "theme = 'd'\n[dev]\nuser = 'u'\n".toUTF8).text =
      .ok "theme = 'd'\n[dev]\nuser = 'u'\n" := by cbv
  have hread : Toml.read "theme = 'd'\n[dev]\nuser = 'u'\n" =
      .ok [("dev", .table [("user", .string "u")]), ("theme", .string "d")] := by cbv
  obtain ⟨m, hm, hnested, -⟩ := discover_connections "base" "c" .warn
    (withFile "theme = 'd'\n[dev]\nuser = 'u'\n") (find_withFile _) not_skipped htext hread
  refine ⟨m, hm, hnested.mpr ?_⟩
  rintro v ⟨⟩

/-- A scalar under the key of the connections is refused in their place, and lost beside a table. -/
theorem discover_connections_misnamed :
    (∃ m, Toml.read "connections = 5" = .ok [("connections", .int 5)] ∧
      (discover { name := "base", path := "c", layout := .connectionsOnly }
        (withFile "connections = 5") none).1 = .ok m ∧
      Config.ofNested m = .error (.branch .number)) ∧
    ∃ m, Toml.read "connections = 5\n[dev]" = .ok [("connections", .int 5), ("dev", .table [])] ∧
      (discover { name := "base", path := "c", layout := .connectionsOnly }
        (withFile "connections = 5\n[dev]") none).1 = .ok m ∧
      Config.ofNested m = .ok { root := [], connections := [("dev", [])] } := by
  have hrefused : Toml.read "connections = 5" = .ok [("connections", .int 5)] := by cbv
  have hlost : Toml.read "connections = 5\n[dev]" =
      .ok [("connections", .int 5), ("dev", .table [])] := by cbv
  refine ⟨⟨Layout.gather [("connections", .int 5)], hrefused, ?_, rfl⟩,
    Layout.gather [("connections", .int 5), ("dev", .table [])], hlost, ?_, rfl⟩
  · exact discover_gather "base" (find_withFile _) not_skipped (by cbv) hrefused
  · exact discover_gather "base" (find_withFile _) not_skipped (by cbv) hlost

end FileSource

end LayeredConfig
