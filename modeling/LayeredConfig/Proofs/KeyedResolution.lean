import LayeredConfig.Proofs.Narrow
import LayeredConfig.Proofs.Resolution
import LayeredConfig.Proofs.Touched

/-!
# Resolution of one key

When a resolver is asked for one key, its sources select what they have at that place and the pass
merges only this. So nothing hides anything, and nothing comes from elsewhere: what is found is what
the sources hold at the place. In a resolution without a key a connection that two files define
comes from the later one (`SPEC_FULL.md:76`, invariant 2), so fields of the earlier one are hidden,
and general parameters and synthesis move values between places (`SPEC_FULL.md:77–82`, invariants 3
and 4). The two ways agree exactly where nothing is hidden or moved, or where what is hidden comes
back by moving.
-/

namespace LayeredConfig

open Keyed (Sorted get?)

namespace Supply

/-- The answers of one supply are those of another, narrowed to a path. -/
structure Narrows (s' s : Supply) (path : String × List String) : Prop where
  files : s'.files.map Answer.data = s.files.map fun a ↦ a.data.narrow path.1 path.2
  overlays : s'.overlays.map Answer.data = s.overlays.map fun a ↦ a.data.narrow path.1 path.2

variable {s s' : Supply} {path : String × List String}

private theorem stack_congr {u u' : Answer → Option Value} (hf : s'.files.map u' = s.files.map u)
    (ho : s'.overlays.map u' = s.overlays.map u) : s'.stack u' = s.stack u := by
  have hs : ∀ (t : Supply) (u : Answer → Option Value), t.stack u =
      (t.overlays.map u).foldl
        (fun o x ↦ x.elim o fun v ↦ some (Table.merged o v))
        ((t.files.map u).reverse.findSome? id) := by
    intro t u
    rw [stack, List.foldl_map, ← List.map_reverse, List.findSome?_map]
    congr 1
    funext o a
    cases u a <;> rfl
  rw [hs, hs, hf, ho]

/-- Narrowing changes no stack of values that stand on the path. -/
theorem Narrows.stack_eq (h : s'.Narrows s path) {u : Answer → Option Value}
    (g : Table → Option Value) (hu : ∀ a : Answer, u a = g a.data)
    (hg : ∀ t : Table, g (t.narrow path.1 path.2) = g t) : s'.stack u = s.stack u := by
  obtain rfl : u = fun a ↦ g a.data := funext hu
  apply stack_congr
  · have hf := congrArg (List.map g) h.files
    rw [List.map_map, List.map_map] at hf
    exact hf.trans (List.map_congr_left fun a _ ↦ hg a.data)
  · have ho := congrArg (List.map g) h.overlays
    rw [List.map_map, List.map_map] at ho
    exact ho.trans (List.map_congr_left fun a _ ↦ hg a.data)

/-- Every answer is a narrowed one. -/
theorem Narrows.exists_narrow (h : s'.Narrows s path) {a : Answer} (ha : a ∈ s'.answers) :
    ∃ t : Table, a.data = t.narrow path.1 path.2 := by
  rcases List.mem_append.mp ha with ha | ha
  · obtain ⟨b, -, hb⟩ := List.mem_map.mp (h.files ▸ List.mem_map_of_mem ha)
    exact ⟨b.data, hb.symm⟩
  · obtain ⟨b, -, hb⟩ := List.mem_map.mp (h.overlays ▸ List.mem_map_of_mem ha)
    exact ⟨b.data, hb.symm⟩

private theorem Narrows.records_eq (h : s'.Narrows s (connectionsKey, [])) (ho : s.Ordered)
    (ho' : s'.Ordered) : s'.records = s.records := by
  apply s'.sorted_records.ext s.sorted_records
  intro name
  have hs := h.stack_eq (u := (·.recordValue? name)) (·.at? connectionsKey [name])
    (·.recordValue?_eq name) (by
      intro t
      rw [Table.at?_eq, Table.at?_eq, ← Table.at?_nil, Table.at?_narrow, Table.at?_nil])
  have hh : s'.held (.connection name) = s.held (.connection name) := hs
  rw [held_connection ho', held_connection ho] at hh
  exact Option.map_injective (fun _ _ ↦ Value.table.inj) hh

private theorem isEmpty_records (h : s.Ordered) : s.records.isEmpty = !s.connected := by
  apply isEmpty_eq
  intro name
  rw [Keyed.contains, get?_records h]
  cases s.names name <;> rfl

private theorem Narrows.held_eq {p : Place} (h : s'.Narrows s p.path) (hp : p.Proper)
    (ho : s.Ordered) (ho' : s'.Ordered) : s'.held p = s.held p := by
  cases p with
  | connections =>
    have hr := h.records_eq ho ho'
    have hc : s'.connected = s.connected := by
      rw [← Bool.not_inj_iff, ← isEmpty_records ho, ← isEmpty_records ho', hr]
    rw [held, held, hr, hc]
  | connection name =>
    exact h.stack_eq (·.at? connectionsKey [name]) (·.recordValue?_eq name) fun t ↦
      t.at?_narrow connectionsKey [name]
  | field name key rest =>
    refine h.stack_eq (·.at? connectionsKey (name :: key :: rest)) ?_ fun t ↦
      t.at?_narrow connectionsKey (name :: key :: rest)
    intro a
    rw [Answer.recordValue?_eq]
    exact (Table.at?_cons _ _ _ _).symm
  | root key rest =>
    have hs := h.stack_eq (u := fun a ↦ (a.root? key).bind (·.descend rest)) (·.at? key rest)
      (by
        intro a
        rw [Answer.root?_eq, if_neg hp, Table.at?_eq])
      fun t ↦ t.at?_narrow key rest
    rw [held, held, hs]

private theorem descend_narrow {t : Table} {first : String} {rest : List String} {v : Value}
    (h : get? first (t.narrow first rest) = some v) : v.descend rest ≠ none := by
  intro hn
  have ha : (t.narrow first rest).at? first rest = none := by
    rw [Table.at?_eq, h, Option.bind_some, hn]
  rw [Table.at?_narrow, ← Table.narrow_eq_nil_iff] at ha
  rw [ha] at h
  cases h

private theorem Narrows.not_hidden {p : Place} (h : s'.Narrows s p.path) : ¬ s'.Hidden p := by
  cases p with
  | connections => exact not_false
  | connection name => exact not_false
  | field name key rest =>
    intro hh
    obtain ⟨a, ha, v, hv, hd⟩ := hh.exists_answer
    obtain ⟨t, ht⟩ := h.exists_narrow ha
    rw [Answer.recordValue?_eq, Table.at?_eq, ht] at hv
    obtain ⟨w, hw, hwv⟩ := Option.bind_eq_some_iff.mp hv
    have hn : w.descend (name :: key :: rest) ≠ none := descend_narrow hw
    rw [Value.descend_cons, hwv] at hn
    exact hn hd
  | root key rest =>
    intro hh
    obtain ⟨a, ha, v, hv, hd⟩ := hh.exists_answer
    obtain ⟨t, ht⟩ := h.exists_narrow ha
    rw [Answer.root?_eq, ht] at hv
    split at hv
    · cases hv
    · exact descend_narrow hv hd

private theorem not_gains (h : s.Ordered) (hr : ∀ a ∈ s.answers, ∀ key, a.root? key = none)
    (name key : String) : ¬ s.Gains name key := by
  have hroot : s.last? (·.root? key) = none := last?_eq_none_iff.mpr fun a ha ↦ hr a ha key
  rintro (⟨-, -, hx⟩ | ⟨-, -, v, hv, -⟩)
  · rw [reaching_eq_none h name (Or.inr hroot)] at hx
    cases hx
  · rw [get?_root h, (stack_eq_none_iff s _).mpr hroot] at hv
    cases hv

private theorem Narrows.not_touched {p : Place} (h : s'.Narrows s p.path) (hp : p.Proper)
    (ho : s'.Ordered) : ¬ s'.Touched p := by
  have hroot : p.path.1 = connectionsKey → ∀ a ∈ s'.answers, ∀ key, a.root? key = none := by
    intro hc a ha key
    obtain ⟨t, ht⟩ := h.exists_narrow ha
    rw [Answer.root?_eq, ht]
    split
    · rfl
    · next hk => exact Table.get?_narrow_of_ne (hc ▸ Ne.symm hk) t _
  cases p with
  | connections =>
    rintro ⟨name, key, hg⟩
    exact not_gains ho (hroot rfl) name key hg
  | connection name =>
    rintro ⟨key, hg⟩
    exact not_gains ho (hroot rfl) name key hg
  | field name key rest =>
    rintro ⟨-, hg⟩
    exact not_gains ho (hroot rfl) name key hg
  | root key rest =>
    have hn : ∀ name, s'.names name = false := by
      intro name
      rw [names, List.any_eq_false]
      intro a ha
      obtain ⟨t, ht⟩ := h.exists_narrow ha
      have hb : get? connectionsKey (t.narrow key rest) = none := Table.get?_narrow_of_ne hp t rest
      have hr : a.recordValue? name = none := by
        rw [Answer.recordValue?_eq, Table.at?_eq, ht]
        exact congrArg (Option.bind · _) hb
      rw [Answer.recordValue?, Option.map_eq_none_iff] at hr
      rw [hr]
      exact Bool.false_ne_true
    have hc : s'.connected = false := (connected_eq_false_iff s').mpr hn
    rintro ⟨-, ht⟩
    split at ht
    · rw [hc] at ht
      cases ht.1
    · rcases ht with ⟨-, hd⟩ | ⟨v, -, ⟨hc', -⟩, -⟩
      · rw [record_of_not_names (hn _)] at hd
        cases hd
      · rw [hc] at hc'
        cases hc'

private theorem Narrows.lookup_eq {key : String} (h : s'.Narrows s (Place.of key).path)
    (ho : s.Ordered) (ho' : s'.Ordered) : s'.result.lookup key = s.held (Place.of key) := by
  have hp := Place.proper_of key
  rw [← h.held_eq hp ho ho']
  exact (lookup_eq_held_iff ho' key).mpr (Or.inl ⟨h.not_hidden, h.not_touched hp ho'⟩)

end Supply

/-! ### Sources that select -/

namespace Resolver

/-- No source fails, and asked for a key each selects what it has there. -/
def Selecting (r : Resolver) (w : World) (key : String) : Prop :=
  ∀ s ∈ r.sources, ∃ t, (s.discover w none).1 = .ok t ∧
    (s.discover w (some key)).1 = .ok (t.select (some key))

variable {r : Resolver} {w : World} {key : String}

private theorem wellFormed_narrow {report report' : Report} {t : Table}
    (h : report.WellFormed) (ho : report.outcome = .ok t) {first : String} {rest : List String}
    (ho' : report'.outcome = .ok (t.narrow first rest)) : report'.WellFormed := by
  obtain ⟨hordered, c, hc⟩ := h t ho
  intro t' ht'
  obtain rfl := Except.ok.inj (ho'.symm.trans ht')
  exact ⟨Table.ordered_narrow hordered first rest, Config.exists_ofNested_narrow hc first rest⟩

private theorem Selecting.wellFormed (h : r.Selecting w key) (hw : r.WellFormed w none) :
    r.WellFormed w (some key) := by
  intro a ha
  obtain ⟨s, hs, rfl⟩ := List.mem_map.mp ha
  obtain ⟨t, ht, htk⟩ := h s hs
  have hw : (s.ask w none).1.WellFormed := hw _ (List.mem_map.mpr ⟨s, hs, rfl⟩)
  exact wellFormed_narrow hw ht htk

private theorem exists_answer {report : Report} (h : report.WellFormed) {t : Table}
    (ho : report.outcome = .ok t) : ∃ a, report.answer? = some a ∧ a.data = t := by
  rcases h.cases with ⟨e, he, -⟩ | ⟨a, -, hd, ha, -⟩
  · rw [ho] at he
    cases he
  · exact ⟨a, ha, Except.ok.inj (hd.symm.trans ho)⟩

private theorem map_data (kind : SourceKind) {sources : List Source}
    (h : ∀ s ∈ sources, ∃ t, (s.discover w none).1 = .ok t ∧
      (s.discover w (some key)).1 = .ok (t.select (some key)))
    (hw : ∀ s ∈ sources, (s.ask w none).1.WellFormed) :
    (((sources.map fun s ↦ (s.ask w (some key)).1).filter (·.kind = kind)).filterMap
        Report.answer?).map Answer.data =
      (((sources.map fun s ↦ (s.ask w none).1).filter (·.kind = kind)).filterMap
        Report.answer?).map fun a ↦ a.data.narrow (segments key).1 (segments key).2 := by
  induction sources with
  | nil => rfl
  | cons s rest ih =>
    have ih := ih (fun s hs ↦ h s (List.mem_cons_of_mem _ hs))
      fun s hs ↦ hw s (List.mem_cons_of_mem _ hs)
    obtain ⟨t, ht, htk⟩ := h s List.mem_cons_self
    have hs := hw s List.mem_cons_self
    obtain ⟨a, ha, rfl⟩ := exists_answer hs ht
    have hk' : (s.ask w (some key)).1.outcome =
        .ok (a.data.narrow (segments key).1 (segments key).2) := htk
    obtain ⟨a', ha', hd⟩ := exists_answer (wellFormed_narrow hs ht hk') hk'
    rw [List.map_cons, List.map_cons]
    by_cases hk : s.kind = kind
    · rw [List.filter_cons_of_pos (by rw [Source.kind_ask]; exact decide_eq_true hk),
        List.filter_cons_of_pos (by rw [Source.kind_ask]; exact decide_eq_true hk),
        List.filterMap_cons_some ha, List.filterMap_cons_some ha', List.map_cons, List.map_cons,
        ih, hd]
    · rw [List.filter_cons_of_neg (by rw [Source.kind_ask]; simpa using hk),
        List.filter_cons_of_neg (by rw [Source.kind_ask]; simpa using hk), ih]

private theorem Selecting.narrows (h : r.Selecting w key) (hw : r.WellFormed w none) :
    (r.supply w (some key)).Narrows (r.supply w none) (Place.of key).path := by
  have hw : ∀ s ∈ r.sources, (s.ask w none).1.WellFormed := fun s hs ↦
    hw _ (List.mem_map.mpr ⟨s, hs, rfl⟩)
  rw [Place.path_of, supply, supply, map_report_askAll, map_report_askAll]
  exact ⟨map_data .file h hw, map_data .overlay h hw⟩

/-- Asked for a key, selecting sources yield what they hold there. A resolution without a key has
the same under it exactly if nothing that they hold there is hidden and the place is not touched
from elsewhere, or if what is hidden is restored. -/
theorem resolveValue_selecting (h : r.Selecting w key) (hw : r.WellFormed w none) :
    (r.resolveValue w key none).1 = .ok ((r.supply w none).held (Place.of key)) ∧
      ∃ c, (r.resolve w none none).1 = .ok c ∧
        ((r.resolveValue w key none).1 = .ok (c.lookup key) ↔
          (¬ (r.supply w none).Hidden (Place.of key) ∧ ¬ (r.supply w none).Touched (Place.of key)) ∨
            (r.supply w none).Restored (Place.of key)) := by
  have ho := hw.ordered
  have hkey := h.wellFormed hw
  have hv : (r.resolveValue w key none).1 = .ok ((r.supply w none).held (Place.of key)) := by
    rw [← (h.narrows hw).lookup_eq ho hkey.ordered]
    change (r.resolve w (some key) none).1.map _ = _
    rw [hkey.resolve_eq]
    rfl
  refine ⟨hv, _, hw.resolve_eq, ?_⟩
  rw [hv, Except.ok.injEq, eq_comm]
  exact Supply.lookup_eq_held_iff ho key

-- the later file takes the field from the connection, and the earlier one's root gives it back
example : ((ofTables
    [("base", .file, [("account", .string "a"),
      ("connections", .table [("dev", .table [("account", .string "a")])])]),
    ("local", .file, [("connections", .table [("dev", .table [("user", .string "u")])])])]).supply
      {} none).Restored (.field "dev" "account" []) :=
  ⟨⟨by decide, rfl, rfl⟩, rfl⟩

/-- Tables known beforehand select what stands under a key. -/
theorem selecting_ofTables (tables : List (String × SourceKind × Table)) (w : World)
    (key : String) : (ofTables tables).Selecting w key := by
  intro s hs
  obtain ⟨⟨name, kind, data⟩, -, rfl⟩ := List.mem_map.mp hs
  exact ⟨data, rfl, rfl⟩

/-- A later file defines a connection anew without the field that the earlier one has, and an
overlay supplies the field again. -/
def overwrittenField : List (String × SourceKind × Table) :=
  [("base", .file, [("connections", .table [("dev", .table [("account", .string "a")])])]),
    ("local", .file, [("connections", .table [("dev", .table [("user", .string "u")])])]),
    ("env", .overlay, [("connections", .table [("dev", .table [("account", .string "e")])])])]

/-- A field that is overwritten after a later file took it away is found alike both ways. -/
theorem resolveValue_overwritten_field :
    ∃ c, ((ofTables overwrittenField).resolve {} none none).1 = .ok c ∧
      ((ofTables overwrittenField).resolveValue {} "connections.dev.account" none).1 =
        .ok (c.lookup "connections.dev.account") := by
  have hw : (ofTables overwrittenField).WellFormed {} none := by decide
  obtain ⟨-, c, hc, hv⟩ := resolveValue_selecting
    (selecting_ofTables overwrittenField {} "connections.dev.account") hw
  have hp : Place.of "connections.dev.account" = .field "dev" "account" [] := by decide
  rw [hp] at hv
  refine ⟨c, hc, hv.mpr (Or.inl ⟨?_, ?_⟩)⟩
  · exact (Supply.own?_eq_held_iff hw.ordered).mp rfl
  · rintro ⟨-, ⟨-, hn, -⟩ | ⟨hd, -⟩⟩
    · have hn : some (Value.string "e") = none := hn
      cases hn
    · exact absurd hd (by decide)

/-- What a later file hides by defining the connection anew is found when only this is asked for. -/
theorem resolveValue_ne_lookup :
    ¬ ∀ (r : Resolver) (w : World), (∀ key, r.Selecting w key) → r.WellFormed w none →
      ∀ key, (r.resolveValue w key none).1 = (r.resolve w none none).1.map (·.lookup key) := by
  intro h
  have hv := h (ofTables
    [("base", .file, [("connections", .table [("dev", .table [("account", .string "a")])])]),
      ("local", .file, [("connections", .table [("dev", .table [("user", .string "u")])])])])
    {} (selecting_ofTables _ _) (by decide) "connections.dev.account"
  have hf : (Except.ok (some (Value.string "a")) : Except Error (Option Value)) = .ok none := hv
  cases hf

end Resolver

end LayeredConfig
