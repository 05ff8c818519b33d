import LayeredConfig.Proofs.Candidates
import LayeredConfig.Proofs.Defaults
import LayeredConfig.Proofs.Fixpoint
import LayeredConfig.Proofs.Flattening
import LayeredConfig.Proofs.Histories

/-!
# Leaves without a history

A tracker that has followed a pass has candidates for every leaf that came from a source, whatever
its key is made of, but for a parameter with the empty key in a connection that was made up. All
other leaves without a history are in the caller's default, which is noted under its own key as a
whole. -/

namespace LayeredConfig

open Keyed (Sorted get?)

/-! ### Keys with candidates -/

namespace Tracker

variable {t t' : Tracker} {key : String}

/-- A tracker has candidates for a key. -/
def Notes (t : Tracker) (key : String) : Prop := t.candidatesAt key ≠ []

/-- What is noted stays noted when candidates are added. -/
theorem Notes.mono (h : t.Notes key) (hp : t.candidatesAt key <+: t'.candidatesAt key) :
    t'.Notes key := by
  intro hn
  rw [hn, List.prefix_nil] at hp
  exact h hp

/-- A key with candidates has a history. -/
theorem Notes.ne_none (h : t.Notes key) : Keyed.get? key t.histories ≠ none := by
  intro hn
  apply h
  rw [candidatesAt, entriesAt, hn]
  rfl

private theorem notes_record (t : Tracker) (c : Candidate) : (t.record c).Notes c.key := by
  rw [Notes, candidatesAt_record]
  split
  · exact List.append_ne_nil_of_right_ne_nil _ (List.cons_ne_nil _ _)
  · next hn =>
    intro hnil
    apply hn
    rw [sourcesAt, hnil]
    exact ⟨rfl, List.not_mem_nil⟩

/-- Of all candidates that are recorded the keys have candidates. -/
theorem notes_foldl (t : Tracker) {cs : List Candidate} {c : Candidate} (hc : c ∈ cs) :
    (cs.foldl record t).Notes c.key := by
  obtain ⟨before, after, rfl⟩ := List.append_of_mem hc
  rw [List.foldl_append, List.foldl_cons]
  exact (notes_record _ c).mono (prefix_foldl _ after _)

private theorem Notes.replicate (h : t.Notes key) {keys : List String} (hk : key ∈ keys)
    (connection : String) : (t.replicate keys connection).Notes (connectionKey connection key) := by
  obtain ⟨before, after, rfl⟩ := List.append_of_mem hk
  have hnotes : (t.replicate before connection).Notes key :=
    h.mono (prefix_replicate t before connection key)
  obtain ⟨c, rest, hc⟩ := List.exists_cons_of_ne_nil hnotes
  have hcopy : c.rekeyed (connectionKey connection key) ∈
      (t.replicate before connection).copies connection key := by
    obtain ⟨e, he, rfl⟩ := List.mem_map.mp (hc ▸ List.mem_cons_self : c ∈ candidatesAt _ key)
    exact List.mem_map.mpr ⟨e, he, rfl⟩
  rw [Tracker.replicate, List.foldl_append, List.foldl_cons, replicateKey_eq]
  exact (notes_foldl _ hcopy).mono (prefix_replicate _ after connection _)

end Tracker

/-! ### What comes from sources -/

namespace Supply

variable {s : Supply} {a : Answer} {name key : String} {rest path : List String} {x : Value}

private theorem mem_trail_of_discovered (ha : a ∈ s.answers) {c : Candidate}
    (hc : c ∈ a.discoveries) : c ∈ s.trail := by
  induction s using induction with
  | empty => cases ha
  | file s b hs ih =>
    rw [answers_addFile hs, List.mem_append, List.mem_singleton] at ha
    rw [trail_addFile hs, List.mem_append]
    rcases ha with ha | rfl
    · exact Or.inl (ih ha)
    · exact Or.inr hc
  | overlay s b ih =>
    rw [answers_addOverlay, List.mem_append, List.mem_singleton] at ha
    rw [trail_addOverlay, List.mem_append, List.mem_append]
    rcases ha with ha | rfl
    · exact Or.inl (ih ha)
    · exact Or.inr (Or.inl hc)

/-- A leaf of an answer is noted under the dotted key of its path, though another leaf may have the
same key. -/
theorem notes_of_leaf (h : s.Ordered) (ha : a ∈ s.answers) (hx : a.data.at? key rest = some x)
    (hl : x.isLeaf = true) : s.recorded.Notes (dotted (key :: rest)) := by
  have hm : (dotted (key :: rest), x) ∈ Table.leaves "" a.data :=
    (Table.mem_leaves "" a.data (h a ha).1 (h a ha).2).mpr ⟨key, rest, hx, hl, rfl⟩
  obtain ⟨v, hv⟩ := Option.isSome_iff_exists.mp (Keyed.isSome_get?_ofList hm)
  have hc : a.report.candidate (dotted (key :: rest)) v ∈ a.discoveries :=
    Answer.mem_discoveries.mpr ⟨_, v, hv, rfl⟩
  exact Tracker.notes_foldl {} (List.mem_append_left _ (mem_trail_of_discovered ha hc))

private theorem notes_of_reaching (h : s.Ordered) (hnames : s.names name = true)
    (hn : get? key (s.record name) = none)
    (hx : (s.offer? name key).or (s.general? key) = some x) :
    s.recorded.Notes (connectionKey name key) := by
  rcases Option.or_eq_some_iff.mp hx with ho | ⟨ho, hg⟩
  · obtain ⟨a, -, -, hc⟩ := exists_mem_trail_of_offer h hn ho
    exact Tracker.notes_foldl {} (List.mem_append_left _ hc)
  · obtain ⟨hroot, hp, ht⟩ := (general?_eq_some_iff s key x).mp hg
    obtain ⟨a, hl⟩ := latest?_of_last ((get?_root_eq_some_iff h ht).mp hroot)
      (isGeneral_iff.mpr ⟨hp, ht⟩)
    have hc : (a.report.candidate key x).rekeyed (connectionKey name key) ∈ s.settled :=
      (mem_settled h (connected_of_names hnames)).mpr
        ⟨name, key, _, hnames, hn, ho, get?_standing_of_latest h hg hl rfl, rfl⟩
    exact Tracker.notes_foldl {} (List.mem_append_right _ hc)

private theorem notes_tracked (h : s.recorded.Notes key) : s.tracked.Notes key := by
  rw [tracked]
  split
  · exact h
  · exact h.mono (Tracker.prefix_replicate _ _ _ _)

/-- What moves to a made-up connection is noted there. -/
theorem notes_of_movable (h : s.Ordered) (hc : s.connected = false)
    (hx : get? key s.movable = some x) :
    s.tracked.Notes (connectionKey Parameter.defaultConnection key) := by
  have hl := Value.isLeaf_of_not_table (not_table_of_movable hx)
  have hroot : (get? key s.root).bind (·.descend []) = some x := by
    rw [((get?_movable_iff s key x).mp hx).1, Option.bind_some, Value.descend_nil]
  obtain ⟨a, ha, hax⟩ := exists_root_leaf h hroot hl
  have hnotes : s.recorded.Notes key := notes_of_leaf h ha hax hl
  rw [tracked, hc, if_neg Bool.false_ne_true]
  exact hnotes.replicate (List.mem_map_of_mem (Keyed.mem_of_get? hx)) _

private theorem notes_of_origin (h : s.Ordered) (ho : s.Origin path x) (hl : x.isLeaf = true) :
    s.tracked.Notes (dotted path) ∨ path = [connectionsKey, Parameter.defaultConnection, ""] := by
  cases ho with
  | root key rest hp hx =>
    obtain ⟨a, ha, hax⟩ := exists_root_leaf h hx hl
    exact Or.inl (hp ▸ notes_tracked (notes_of_leaf h ha hax hl))
  | own name key rest hp hx =>
    obtain ⟨a, ha, hax⟩ := exists_record_leaf h hx hl
    exact Or.inl (hp ▸ notes_tracked (notes_of_leaf h ha hax hl))
  | reaching name key hp hnames hn hx =>
    have hkey : key ≠ "" := by
      rintro rfl
      rw [reaching_eq_none h name (Or.inl (by decide))] at hx
      cases hx
    rw [hp, ← connectionKey_eq_dotted hkey]
    exact Or.inl (notes_tracked (notes_of_reaching h hnames hn hx))
  | moved key hp hc hx =>
    by_cases hkey : key = ""
    · exact Or.inr (hkey ▸ hp)
    · rw [hp, ← connectionKey_eq_dotted hkey]
      exact Or.inl (notes_of_movable h hc hx)

end Supply

/-! ### Leaves of configurations -/

namespace Config

variable {c c' : Config} {key : String} {path' : List String} {v x : Value}

/-- What the path to a value other than a table leads into: the root, or a connection. -/
theorem descend_cases (hc : Keyed.get? connectionsKey c.root = none)
    (hx : (Value.table c.toNested).descend path' = some x) (ht : x.isTable = false) :
    (∃ first rest, path' = first :: rest ∧ first ≠ connectionsKey ∧
      c.root.at? first rest = some x) ∨
      ∃ name record first rest, path' = connectionsKey :: name :: first :: rest ∧
        Keyed.get? name c.connections = some record ∧ record.at? first rest = some x := by
  -- a path that ends before it is in the root or a connection leads to a table
  have short : ∀ {t : Table}, (Value.table t).descend [] ≠ some x := by
    rintro t h
    obtain rfl := Option.some.inj h
    cases ht
  cases path' with
  | nil => exact absurd hx short
  | cons first rest =>
    rw [Value.descend_table, get?_toNested hc] at hx
    by_cases hf : first = connectionsKey
    · subst hf
      rw [if_pos rfl] at hx
      split at hx
      · cases hx
      · cases rest with
        | nil => exact absurd hx short
        | cons name rest =>
          rw [Option.bind_some, Value.descend_table, Table.get?_ofRecords] at hx
          cases hr : Keyed.get? name c.connections with
          | none =>
            rw [hr] at hx
            cases hx
          | some record =>
            rw [hr, Option.map_some, Option.bind_some] at hx
            cases rest with
            | nil => exact absurd hx short
            | cons first rest =>
              rw [Value.descend_table, ← Table.at?_eq] at hx
              exact Or.inr ⟨name, record, first, rest, rfl, hr, hx⟩
    · rw [if_neg hf, ← Table.at?_eq] at hx
      exact Or.inl ⟨first, rest, rfl, hf, hx⟩

/-- A leaf of the nested form that is no table is a leaf of the configuration. -/
theorem mem_leaves_of_toNested (h : c.WellFormed) (hm : (key, x) ∈ Table.leaves "" c.toNested)
    (ht : x.isTable = false) : (key, x) ∈ c.leaves := by
  have ho := h.ordered_toNested
  obtain ⟨first, rest, hx, hl, rfl⟩ := (Table.mem_leaves "" _ ho.1 ho.2).mp hm
  rw [Table.at?_eq, ← Value.descend_table] at hx
  rw [leaves, List.mem_append]
  rcases descend_cases h.branch hx ht with
    ⟨first', rest', hp, -, hx⟩ | ⟨name, record, first', rest', hp, hr, hx⟩
  · rw [hp]
    exact Or.inl ((Table.mem_leaves "" _ h.root.1 h.root.2).mpr ⟨first', rest', hx, hl, rfl⟩)
  · have hrecord : (Value.table record).Ordered := by
      apply h.records.get? (k := name)
      rw [Table.get?_ofRecords, hr]
      rfl
    refine Or.inr (List.mem_flatMap.mpr ⟨(name, record), Keyed.mem_of_get? hr, ?_⟩)
    refine (Table.mem_leaves _ _ hrecord.1 hrecord.2).mpr ⟨first', rest', hx, hl, ?_⟩
    rw [hp, connectionKey_empty]
    rfl

private theorem descend_set (hc : Keyed.get? connectionsKey c.root = none)
    (hn : c.lookup key = none) (hv : v.Ordered) (h : c.set key v = .ok c')
    (hx : (Value.table c'.toNested).descend path' = some x) (ht : x.isTable = false) :
    (∃ rest, path' = path key ++ rest ∧ v.descend rest = some x) ∨
      (Value.table c.toNested).descend path' = some x := by
  have hat := descend_path (get?_root_set hc h) key
  by_cases hp : path key <+: path'
  · obtain ⟨rest, rfl⟩ := hp
    rw [Value.descend_append, hat] at hx
    obtain ⟨w, hw, hx⟩ := Option.bind_eq_some_iff.mp hx
    have hl : c'.lookup key = some w := by rw [lookup, hw]
    rcases lookup_set hc hn h hv with ⟨-, hl'⟩ | ⟨-, hl'⟩
    · rw [hl'] at hl
      cases hl
    · obtain rfl := Option.some.inj (hl'.symm.trans hl)
      exact Or.inl ⟨rest, rfl, hx⟩
  · refine Or.inr ?_
    rw [← descend_set_of_apart hc h hp ?_, hx]
    -- nothing is below what is no table, but the value is below the beginning of its path
    rintro ⟨rest, hr⟩
    by_cases hk : key = connectionsKey
    · subst hk
      have hpath : path connectionsKey = [connectionsKey] := by
        rw [path, segments_of_no_dot (by decide)]
      cases path' with
      | nil =>
        obtain rfl := Option.some.inj hx
        cases ht
      | cons first after =>
        rw [hpath, List.cons_append, List.cons.injEq, List.append_eq_nil_iff] at hr
        obtain ⟨rfl, rfl, -⟩ := hr
        exact hp (hpath ▸ List.prefix_refl _)
    · rw [valueAt?_set_self hc hk h, ← hr, Value.descend_append, hx, Option.bind_some] at hat
      cases rest with
      | nil =>
        rw [List.append_nil] at hr
        exact hp (hr ▸ List.prefix_refl _)
      | cons s rest =>
        rw [Value.descend_of_not_table ht] at hat
        cases hat

end Config

/-! ### After a pass -/

/-- What placing comes to: nothing, or the default under its key. -/
theorem Pass.place_inv {c c' : Config} {key : Option String} {default : Option Value}
    {placed : List Event} (h : place c key default = .ok (c', placed)) :
    (c' = c ∧ placed = []) ∨ ∃ k v, key = some k ∧ default = some v ∧ c.lookup k = none ∧
      c.set k v = .ok c' ∧ placed = [.defaultUsed k v] := by
  cases key with
  | none =>
    cases h
    exact Or.inl ⟨rfl, rfl⟩
  | some k =>
    cases default with
    | none =>
      cases h
      exact Or.inl ⟨rfl, rfl⟩
    | some v =>
      rcases place_ok h with ⟨-, rfl, rfl⟩ | ⟨hn, hset, rfl⟩
      · exact Or.inl ⟨rfl, rfl⟩
      · exact Or.inr ⟨k, v, rfl, rfl, hn, hset, rfl⟩

/-- What a tracker follows before the end of a pass is going on. -/
theorem Supply.going_tracked (s : Supply) : s.tracked.Going := by
  have hrecorded : s.recorded.Going := Tracker.going_empty.foldl s.candidates
  rw [tracked]
  split
  · exact hrecorded
  · exact hrecorded.replicate _ _

private theorem Supply.notes_of_descend {s : Supply} (h : s.Ordered) {path : List String}
    {x : Value}
    (hx : (Value.table s.result.toNested).descend path = some x) (ht : x.isTable = false) :
    s.tracked.Notes (dotted path) ∨ path = [connectionsKey, Parameter.defaultConnection, ""] := by
  refine notes_of_origin h ?_ (Value.isLeaf_of_not_table ht)
  rcases Config.descend_cases (complete_result h).branch hx ht with
    ⟨first, rest, rfl, -, hx⟩ | ⟨name, record, first, rest, rfl, hr, hx⟩
  · exact origin_of_root h hx
  · exact origin_of_connection h hr hx

namespace Resolver

variable {r : Resolver} {w : World} {key : Option String} {default : Option Value} {c : Config}
  {t : Tracker}

/-- Sources whose tables are ordered are well formed if a resolution comes to a configuration. -/
theorem wellFormed_of_ok
    (ho : ∀ a ∈ r.askAll w key, ∀ data, a.report.outcome = .ok data → (Value.table data).Ordered)
    (hok : (r.resolve w key default).1 = .ok c) : r.WellFormed w key := by
  intro a ha data hdata
  refine ⟨ho a ha data hdata, ?_⟩
  rcases Config.ofNested_cases data with ⟨split, hs, -⟩ | ⟨cause, -, v, hv, hnot⟩
  · exact ⟨split, hs⟩
  · obtain ⟨before, first, after, hs, hb, hf⟩ :=
      exists_first_malformed ⟨a, ha, data, v, hdata, hv, hnot⟩
    obtain ⟨cause, hcause⟩ : ∃ cause, (r.resolve w key default).1 =
        .error (.malformedOutput first.before.name cause) :=
      (resolve_of_first default hs hb hf).1
    rw [hok] at hcause
    cases hcause

/-- What a resolution comes to is what the sources supply, with the default where it is placed. -/
theorem exists_place (h : r.WellFormed w key) (hok : (r.resolve w key default).1 = .ok c) :
    ∃ placed, Pass.place (r.supply w key).result key default = .ok (c, placed) := by
  rw [result_resolve, Pass.run_result, ← result_resolve, h.resolve_eq] at hok
  dsimp only at hok
  cases hp : Pass.place (r.supply w key).result key default with
  | error e =>
    rw [hp] at hok
    cases hok
  | ok result =>
    rw [hp] at hok
    obtain rfl : result.1 = c := Except.ok.inj hok
    exact ⟨result.2, rfl⟩

/-- The result of a resolution is well formed, also with a default. -/
theorem WellFormed.result (h : r.WellFormed w key) (hd : ∀ d, default = some d → d.Ordered)
    (hok : (r.resolve w key default).1 = .ok c) : c.WellFormed := by
  have hresult := (Supply.complete_result h.ordered).wellFormed
  obtain ⟨placed, hp⟩ := exists_place h hok
  rcases Pass.place_inv hp with ⟨rfl, -⟩ | ⟨k, v, -, hv, -, hset, -⟩
  · exact hresult
  · exact hresult.set (hd v hv) hset

/-- The tracker has what the sources told, then a default, and is closed by the result. -/
theorem exists_placed (h : r.WellFormed w key) (hok : (r.resolve w key default).1 = .ok c)
    (ht : (r.resolve w key default).2.observers.history = some t) :
    ∃ placed, Pass.place (r.supply w key).result key default = .ok (c, placed) ∧
      t = (placed.foldl Tracker.observe (r.supply w key).tracked).finalize c := by
  obtain ⟨placed, hp⟩ := exists_place h hok
  rw [observers_resolve, Observers.history_notifyAll] at ht
  obtain ⟨first, -, rfl⟩ := Option.map_eq_some_iff.mp ht
  exact ⟨placed, hp,
    Supply.foldl_observe_placed h.of_mem_reports h.ordered h.merge_layers
      (r.trailAll_askAll w key) hp first⟩

/-- After a resolution the tracker is closed by the result. -/
theorem closed_of_ok (h : r.WellFormed w key) (hok : (r.resolve w key default).1 = .ok c)
    (ht : (r.resolve w key default).2.observers.history = some t) :
    Sorted t.histories ∧ ∀ k history, get? k t.histories = some history →
      history.Closed k (get? k c.flatten) := by
  obtain ⟨placed, hp, rfl⟩ := exists_placed h hok ht
  have hgoing : (placed.foldl Tracker.observe (r.supply w key).tracked).Going := by
    apply (r.supply w key).going_tracked.foldl_observe
    rcases Pass.place_inv hp with ⟨-, rfl⟩ | ⟨k, v, -, -, -, -, rfl⟩ <;> simp
  exact ⟨hgoing.sorted_finalize c, fun k history hh ↦ hgoing.closed_finalize c hh⟩

/-- What stands in the result of a resolution and is no table is noted, unless it moved with the
empty key or stands in the caller's default, which was used. -/
theorem notes_or_default (h : r.WellFormed w key) (hd : ∀ d, default = some d → d.Ordered)
    (hok : (r.resolve w key default).1 = .ok c)
    (ht : (r.resolve w key default).2.observers.history = some t) {path : List String} {x : Value}
    (hx : (Value.table c.toNested).descend path = some x) (hxt : x.isTable = false) :
    (t.Notes (dotted path) ∨ path = [connectionsKey, Parameter.defaultConnection, ""]) ∨
      ∃ k d rest, key = some k ∧ default = some d ∧ t.usesDefault k = true ∧
        path = Config.path k ++ rest ∧ d.descend rest = some x := by
  obtain ⟨placed, hp, rfl⟩ := exists_placed h hok ht
  have hgoing := (r.supply w key).going_tracked
  have hsupplied : (Value.table (r.supply w key).result.toNested).descend path = some x → _ :=
    fun hx ↦ Supply.notes_of_descend h.ordered hx hxt
  rcases Pass.place_inv hp with ⟨rfl, rfl⟩ | ⟨k, d, hk, hdef, hn, hset, rfl⟩
  · refine Or.inl ((hsupplied hx).imp_left fun hnotes ↦ ?_)
    rw [Tracker.Notes, Tracker.candidatesAt_finalize]
    exact hnotes
  · have hbranch := (Supply.complete_result h.ordered).branch
    rcases Config.descend_set hbranch hn (hd d hdef) hset hx hxt with ⟨rest, hrest, hx⟩ | hx
    · refine Or.inr ⟨k, d, rest, hk, hdef, ?_, hrest, hx⟩
      rw [Tracker.usesDefault_finalize, List.foldl_cons, List.foldl_nil,
        Tracker.usesDefault_observe _ (by simp), Event.fills, beq_self_eq_true, Bool.true_or]
    · have hprefix := Tracker.prefix_observe hgoing (e := .defaultUsed k d)
        (fun he ↦ by cases he) (dotted path)
      refine Or.inl ((hsupplied hx).imp_left fun hnotes ↦ ?_)
      rw [Tracker.Notes, Tracker.candidatesAt_finalize]
      exact hnotes.mono hprefix

end Resolver

end LayeredConfig
