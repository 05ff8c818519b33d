import LayeredConfig.Proofs.Noted

/-!
# Making up a connection

Where there is no connection, the free-standing parameters at the root become one. Nothing is lost and
no value changes on the way, and afterwards nothing is left to move. In a pass the histories of what
moved are copied to the connection.
-/

namespace LayeredConfig

open Keyed (Sorted)

/-! ### Moving parameters -/

namespace Config

variable {c : Config} {key : String} {v : Value}

/-- A root key that may move to a made-up connection: it holds no table, and is no setting of its
own. -/
def Eligible (c : Config) (key : String) : Prop :=
  key ∉ ["connections", "variables", "cli", "default_connection_name"] ∧
    ∃ v, Keyed.get? key c.root = some v ∧ v.isTable = false

/-- The eligible root keys, in order, moved to the only connection. That and the remaining root are
two parts of the root, and nothing more can move. -/
structure Moved (c : Config) (keys : List String) (c' : Config) : Prop where
  ascending : keys.Pairwise (· < ·)
  mem_keys : ∀ key, key ∈ keys ↔ c.Eligible key
  split : ∃ record, c'.connections = [("default", record)] ∧ Keyed.keys record = keys ∧
    ∀ key, Keyed.get? key c.root = (Keyed.get? key record).or (Keyed.get? key c'.root) ∧
      (Keyed.get? key record = none ∨ Keyed.get? key c'.root = none)
  sorted_root : Sorted c'.root
  not_eligible : ∀ key, ¬ c'.Eligible key

/-- An entry moves if it is no table and its key no setting of its own. -/
theorem movesToDefault_iff : movesToDefault (key, v) = true ↔
    key ∉ ["connections", "variables", "cli", "default_connection_name"] ∧ v.isTable = false := by
  rw [movesToDefault, Bool.and_eq_true, Bool.not_eq_true', Parameter.isEligible, Bool.not_eq_true',
    ← Bool.not_eq_true, List.contains_iff_mem, Parameter.reservedRootKeys]

/-- The keys that move are the eligible ones. -/
theorem mem_keys_filter (h : Sorted c.root) :
    key ∈ Keyed.keys (c.root.filter movesToDefault) ↔ c.Eligible key := by
  rw [Keyed.keys, List.mem_map, Eligible]
  constructor
  · rintro ⟨⟨k, v⟩, he, rfl⟩
    obtain ⟨he, hm⟩ := List.mem_filter.mp he
    obtain ⟨hk, ht⟩ := movesToDefault_iff.mp hm
    exact ⟨hk, v, h.mem_iff.mp he, ht⟩
  · rintro ⟨hk, v, hv, ht⟩
    refine ⟨(key, v), List.mem_filter.mpr ⟨h.mem_iff.mpr hv, ?_⟩, rfl⟩
    exact movesToDefault_iff.mpr ⟨hk, ht⟩

/-- Something moves if some root key is eligible. -/
theorem filter_eq_nil_iff (h : Sorted c.root) :
    c.root.filter movesToDefault = [] ↔ ∀ key, ¬ c.Eligible key := by
  have hkeys : c.root.filter movesToDefault = [] ↔
      Keyed.keys (c.root.filter movesToDefault) = [] := List.map_eq_nil_iff.symm
  rw [hkeys, List.eq_nil_iff_forall_not_mem]
  exact forall_congr' fun key ↦ not_congr (mem_keys_filter h)

/-- With a connection, or without anything that moves, nothing happens. -/
theorem synthesize_eq_self (h : c.connections ≠ [] ∨ c.root.filter movesToDefault = []) :
    c.synthesize = ([], c) := by
  rw [synthesize]
  rcases h with h | h
  · rw [List.isEmpty_eq_false_iff.mpr h]
    rfl
  · rw [h, List.isEmpty_nil, Bool.or_true]
    rfl

/-- Without a connection what can move does. -/
theorem synthesize_of_movable (hc : c.connections = [])
    (hm : c.root.filter movesToDefault ≠ []) :
    c.synthesize = (Keyed.keys (c.root.filter movesToDefault),
      { root := c.root.filter fun e ↦ !movesToDefault e
        connections := [("default", c.root.filter movesToDefault)] }) := by
  rw [synthesize, hc, List.isEmpty_eq_false_iff.mpr hm]
  rfl

private theorem moved_synthesize (h : Sorted c.root) (hc : c.connections = [])
    (he : ∃ key, c.Eligible key) : c.Moved c.synthesize.1 c.synthesize.2 := by
  obtain ⟨key, he⟩ := he
  have hm : c.root.filter movesToDefault ≠ [] := fun hm ↦ (filter_eq_nil_iff h).mp hm key he
  rw [synthesize_of_movable hc hm]
  refine ⟨?_, fun _ ↦ mem_keys_filter h, ⟨_, rfl, rfl, fun k ↦ ?_⟩, h.filter _, ?_⟩
  · exact List.pairwise_map.mpr (h.filter _)
  · rw [h.get?_filter, h.get?_filter]
    cases Keyed.get? k c.root with
    | none => exact ⟨rfl, Or.inl rfl⟩
    | some v => cases hp : movesToDefault (k, v) <;> simp [Option.filter, hp]
  · rintro k ⟨hk, v, hv, ht⟩
    rw [h.get?_filter, Option.filter_eq_some_iff, Bool.not_eq_true'] at hv
    rw [movesToDefault_iff.mpr ⟨hk, ht⟩] at hv
    cases hv.2

/-- A second time nothing moves. -/
theorem synthesize_synthesize (c : Config) : c.synthesize.2.synthesize = ([], c.synthesize.2) := by
  by_cases h : c.connections ≠ [] ∨ c.root.filter movesToDefault = []
  · rw [synthesize_eq_self h, synthesize_eq_self h]
  · rw [not_or, not_not] at h
    rw [synthesize_of_movable h.1 h.2]
    exact synthesize_eq_self (Or.inl (List.cons_ne_nil _ _))

end Config

/-! ### Copied histories -/

namespace Tracker

variable {t : Tracker} {key : String}

/-- Candidates of other keys leave those of a key as they are. -/
theorem candidatesAt_foldl_of_ne (t : Tracker) {cs : List Candidate} (h : ∀ c ∈ cs, c.key ≠ key) :
    (cs.foldl record t).candidatesAt key = t.candidatesAt key := by
  rw [candidatesAt, entriesAt_foldl_of_ne t h, candidatesAt]

private theorem candidatesAt_foldl_of_nodup {cs : List Candidate} (hk : ∀ c ∈ cs, c.key = key)
    (hn : (t.sourcesAt key ++ cs.map Candidate.source).Nodup) :
    (cs.foldl record t).candidatesAt key = t.candidatesAt key ++ cs := by
  induction cs generalizing t with
  | nil => exact (List.append_nil _).symm
  | cons c cs ih =>
    rw [List.forall_mem_cons] at hk
    rw [List.map_cons] at hn
    have hnew : c.source ∉ t.sourcesAt key := by
      intro hc
      exact (List.nodup_append.mp hn).2.2 _ hc _ List.mem_cons_self rfl
    have hc : (t.record c).candidatesAt key = t.candidatesAt key ++ [c] := by
      rw [candidatesAt_record, if_pos ⟨hk.1, hnew⟩]
    have hs : (t.record c).sourcesAt key = t.sourcesAt key ++ [c.source] := by
      rw [sourcesAt, hc, List.map_append]
      rfl
    rw [List.foldl_cons, ih hk.2, hc, List.append_assoc, List.singleton_append]
    rw [hs, List.append_assoc, List.singleton_append]
    exact hn

private theorem copies_eq (t : Tracker) (connection key : String) :
    t.copies connection key =
      (t.candidatesAt key).map (·.rekeyed (connectionKey connection key)) := by
  rw [copies, candidatesAt, List.map_map]
  rfl

/-- Copies are candidates for the field of the connection. -/
theorem key_of_mem_copies {connection : String} {c : Candidate} (hc : c ∈ t.copies connection key) :
    c.key = connectionKey connection key := by
  obtain ⟨_, -, rfl⟩ := List.mem_map.mp hc
  rfl

private theorem candidatesAt_foldl_copies (h : t.Recording) {connection : String}
    {keys : List String} (hk : key ∈ keys) (hn : keys.Nodup)
    (hinj : ∀ k ∈ keys, connectionKey connection k = connectionKey connection key → k = key)
    (hnone : t.candidatesAt (connectionKey connection key) = []) :
    ((keys.flatMap (t.copies connection)).foldl record t).candidatesAt
        (connectionKey connection key) =
      (t.candidatesAt key).map (·.rekeyed (connectionKey connection key)) := by
  obtain ⟨before, after, rfl⟩ := List.append_of_mem hk
  have hne : ∀ part ⊆ before ++ key :: after, key ∉ part →
      ∀ c ∈ part.flatMap (t.copies connection), c.key ≠ connectionKey connection key := by
    intro part hpart hnot c hc he
    obtain ⟨k, hk, hc⟩ := List.mem_flatMap.mp hc
    rw [key_of_mem_copies hc] at he
    exact hnot (hinj k (hpart hk) he ▸ hk)
  obtain ⟨-, hafter, hbefore⟩ := List.nodup_append.mp hn
  have hb := hne before (List.subset_append_left _ _) fun hm ↦
    hbefore _ hm _ List.mem_cons_self rfl
  have ha := hne after (fun k hk ↦ List.mem_append_right _ (List.mem_cons_of_mem _ hk))
    (List.nodup_cons.mp hafter).1
  rw [List.flatMap_append, List.flatMap_cons, List.foldl_append, List.foldl_append,
    candidatesAt_foldl_of_ne _ ha, candidatesAt_foldl_of_nodup (fun c ↦ key_of_mem_copies),
    candidatesAt_foldl_of_ne _ hb, hnone, List.nil_append, copies_eq]
  rw [sourcesAt, candidatesAt_foldl_of_ne _ hb, hnone, List.map_nil, List.nil_append, copies_eq,
    List.map_map, candidatesAt, List.map_map]
  exact (h key).nodup

end Tracker

namespace Supply

variable {s : Supply} {key : String}

/-- Without a connection the candidates of a key that moves are those of the field that it becomes. -/
theorem candidatesAt_tracked_of_movable (h : s.Ordered) (hp : s.Plain) (hc : s.connected = false)
    (hk : key ∈ Keyed.keys s.movable) :
    s.tracked.candidatesAt (connectionKey Parameter.defaultConnection key) =
      (s.tracked.candidatesAt key).map
        (·.rekeyed (connectionKey Parameter.defaultConnection key)) := by
  have hrec : s.recorded.Recording := Tracker.recording_empty.foldl s.candidates
  have hkey := plainKey_of_movable h hp hk
  have hroot : s.tracked.candidatesAt key = s.recorded.candidatesAt key := by
    rw [tracked_of_not_connected h hp hc]
    apply Tracker.candidatesAt_foldl_of_ne
    intro c hc
    obtain ⟨k, hk, hc⟩ := List.mem_flatMap.mp hc
    rw [Tracker.key_of_mem_copies hc]
    exact connectionKey_ne plainKey_default (plainKey_of_movable h hp hk) hkey
  have hnodup : (Keyed.keys s.movable).Nodup := by
    have hs : (Keyed.keys s.movable).Pairwise (· < ·) :=
      List.pairwise_map.mpr (s.sorted_root.filter _)
    exact hs.imp ne_of_lt
  have hnone : s.recorded.candidatesAt (connectionKey Parameter.defaultConnection key) = [] := by
    rw [Tracker.candidatesAt, entriesAt_recorded_eq_nil h hp hc plainKey_default hkey, List.map_nil]
  rw [hroot, tracked_of_not_connected h hp hc]
  apply Tracker.candidatesAt_foldl_copies hrec hk hnodup _ hnone
  intro k hk he
  exact (connectionKey_inj plainKey_default (plainKey_of_movable h hp hk) plainKey_default hkey
    he).2

private theorem notes_tracked_of_movable (h : s.Ordered) (hp : s.Plain) (hc : s.connected = false)
    (hk : key ∈ Keyed.keys s.movable) : s.tracked.Notes key := by
  obtain ⟨⟨k, v⟩, he, rfl⟩ := List.mem_map.mp hk
  have hv : Keyed.get? k s.movable = some v := (s.sorted_root.filter _).mem_iff.mp he
  have hnotes := notes_of_movable h hc hv
  rw [Tracker.Notes, candidatesAt_tracked_of_movable h hp hc hk] at hnotes
  intro hn
  rw [hn] at hnotes
  exact hnotes rfl

end Supply

namespace Resolver

variable {r : Resolver} {w : World} {key : Option String} {default : Option Value} {t : Tracker}
  {k : String}

/-- The keys that move to a made-up connection in a pass. -/
def moved (r : Resolver) (w : World) (key : Option String) : List String :=
  match (Pass.merge {} (reports (r.askAll w key))).layers with
  | .ok l => l.settle.1.synthesize.1
  | .error _ => []

private theorem wellFormed_of_moved
    (ho : ∀ a ∈ r.askAll w key, ∀ data, a.report.outcome = .ok data → (Value.table data).Ordered)
    (hk : k ∈ r.moved w key) : r.WellFormed w key := by
  rw [moved] at hk
  cases hl : (Pass.merge {} (reports (r.askAll w key))).layers with
  | error e =>
    rw [hl] at hk
    cases hk
  | ok l =>
    have hok : (r.resolve w key none).1 = .ok (Pass.synthesize l.settle.1).1 := by
      rw [result_resolve, Pass.run_of_ok hl, Pass.conclude, Pass.place_none]
    exact wellFormed_of_ok ho hok

private theorem mem_movable_of_moved (h : r.WellFormed w key) (hk : k ∈ r.moved w key) :
    (r.supply w key).connected = false ∧ k ∈ Keyed.keys (r.supply w key).movable := by
  have he := Supply.synthesize_eq h.ordered
  rw [moved, h.merge_layers] at hk
  rw [Pass.synthesize] at he
  dsimp only at he hk
  rw [List.isEmpty_eq_false_iff.mpr (List.ne_nil_of_mem hk), if_neg Bool.false_ne_true] at he
  split at he
  · cases he
  · next hc =>
    rw [Bool.or_eq_true, not_or, Bool.not_eq_true] at hc
    obtain ⟨-, hkeys⟩ := Event.synthesized.inj (List.cons.inj he).1
    exact ⟨hc.1, hkeys ▸ hk⟩

private theorem candidatesAt_of_notes (h : r.WellFormed w key)
    (ht : (r.resolve w key default).2.observers.history = some t)
    (hn : (r.supply w key).tracked.Notes k) :
    t.candidatesAt k = (r.supply w key).tracked.candidatesAt k := by
  rw [observers_resolve, Observers.history_notifyAll] at ht
  obtain ⟨first, -, rfl⟩ := Option.map_eq_some_iff.mp ht
  have htrail := r.trailAll_askAll w key
  cases hp : Pass.place (r.supply w key).result key default with
  | error e =>
    rw [events, Supply.foldl_observe_rejected h.of_mem_reports h.ordered h.merge_layers htrail hp]
  | ok result =>
    rw [events, Supply.foldl_observe_placed h.of_mem_reports h.ordered h.merge_layers htrail hp,
      Tracker.candidatesAt_finalize]
    rcases Pass.place_inv hp with ⟨-, hplaced⟩ | ⟨k', v, -, -, -, -, hplaced⟩
    · rw [hplaced, List.foldl_nil]
    · rw [hplaced, List.foldl_cons, List.foldl_nil]
      change ((r.supply w key).tracked.markDefault k' v).candidatesAt k = _
      rw [Tracker.candidatesAt_markDefault (r.supply w key).going_tracked, if_neg fun hk ↦ hn hk.2]

/-- Making up a connection moves the eligible root keys, all of them and unchanged, if there is no
connection and there are such keys; it does nothing else, and nothing the second time. In a pass over
sources with plain keys, each key that moves has candidates, and the field that it becomes has those
of the same sources, with the same values and in the same order. -/
theorem synthesize_lawful :
    (∀ c : Config, Sorted c.root →
      ((c.connections ≠ [] ∨ ∀ key, ¬ c.Eligible key) → c.synthesize = ([], c)) ∧
        (c.connections = [] → (∃ key, c.Eligible key) →
          c.Moved c.synthesize.1 c.synthesize.2) ∧
        c.synthesize.2.synthesize = ([], c.synthesize.2)) ∧
      ∀ (r : Resolver) (w : World) (key : Option String) (default : Option Value) (t : Tracker),
        (∀ a ∈ r.askAll w key, ∀ data, a.report.outcome = .ok data →
          (Value.table data).Ordered) →
        r.Plain w key → (r.resolve w key default).2.observers.history = some t →
          ∀ k ∈ r.moved w key, t.candidatesAt k ≠ [] ∧
            t.candidatesAt (connectionKey "default" k) =
              (t.candidatesAt k).map (·.rekeyed (connectionKey "default" k)) := by
  constructor
  · intro c hs
    refine ⟨fun h ↦ Config.synthesize_eq_self ?_, Config.moved_synthesize hs,
      Config.synthesize_synthesize c⟩
    rwa [Config.filter_eq_nil_iff hs]
  · intro r w key default t ho hp ht k hk
    have hw := wellFormed_of_moved ho hk
    obtain ⟨hc, hk⟩ := mem_movable_of_moved hw hk
    have hroot := Supply.notes_tracked_of_movable hw.ordered hp.supply hc hk
    have hcopies := Supply.candidatesAt_tracked_of_movable hw.ordered hp.supply hc hk
    have hfield : (r.supply w key).tracked.Notes (connectionKey "default" k) := by
      intro hn
      exact hroot (List.map_eq_nil_iff.mp (hcopies.symm.trans hn))
    rw [candidatesAt_of_notes hw ht hroot, candidatesAt_of_notes hw ht hfield]
    exact ⟨hroot, hcopies⟩

/-- A file and an overlay with an account at the root, and a tracker. -/
def accountTwice : Resolver :=
  (ofTables
    [("base", .file, [("account", .string "acme"), ("cli", .string "off")]),
      ("env", .overlay, [("account", .string "other")])]).attach .history

/-- What these merge to loses its account to the made-up connection, and a second time nothing happens.
Both accounts are candidates for the field. -/
theorem synthesize_lawful_account :
    let c : Config := { root := [("account", .string "other"), ("cli", .string "off")] }
    let c' : Config :=
      { root := [("cli", .string "off")]
        connections := [("default", [("account", .string "other")])] }
    c.Moved ["account"] c' ∧
      c.synthesize.2.synthesize = ([], c.synthesize.2) ∧
      ∃ t, (accountTwice.resolve {} none none).2.observers.history = some t ∧
        t.sourcesAt "account" = ["base", "env"] ∧
        t.candidatesAt "connections.default.account" =
          (t.candidatesAt "account").map (·.rekeyed "connections.default.account") := by
  intro c c'
  obtain ⟨hconfig, hpass⟩ := synthesize_lawful
  obtain ⟨-, hmoved, htwice⟩ := hconfig c (by decide)
  have he : c.Eligible "account" := ⟨by decide, .string "other", rfl, rfl⟩
  have hw : accountTwice.WellFormed {} none := by decide
  refine ⟨hmoved rfl ⟨_, he⟩, htwice, _, rfl, rfl, ?_⟩
  exact (hpass accountTwice {} none none _ (fun a ha data hdata ↦ (hw a ha data hdata).1)
    (by decide) rfl "account" (by decide)).2

end Resolver

end LayeredConfig
