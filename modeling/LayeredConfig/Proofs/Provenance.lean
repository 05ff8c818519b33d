import LayeredConfig.Proofs.Candidates
import LayeredConfig.Proofs.Connected
import LayeredConfig.Proofs.Delivery

/-!
# Where candidates come from

After a pass, every leaf of every source is a candidate for its key, the only one of its source, and
these candidates are in processing order. Every other candidate is a general parameter in a
connection of the result, a copy that a made-up connection got of a root key's candidate, or the
caller's default under a key that has no other.
-/

namespace LayeredConfig

open Keyed (Sorted get?)

/-! ### What one source reports for a key -/

/-- The first candidate for a key that events report. -/
def Event.first? (key : String) (events : List Event) : Option Candidate :=
  (events.filterMap Event.candidate?).find? (·.key == key)

namespace Report

/-- The leaf of a report under a key, as a candidate. -/
def leaf? (key : String) (r : Report) : Option Candidate :=
  match r.outcome with
  | .ok t => (get? key (Table.flatten t)).map (r.candidate key)
  | .error _ => none

/-- The leaves of a table as candidates of a report. -/
def leaves (r : Report) (t : Table) : List Candidate :=
  (Table.flatten t).map fun e ↦ r.candidate e.1 e.2

variable {r : Report} {t : Table} {told : List Event} {key : String}

/-- A leaf is made out to its source. -/
theorem source_of_leaf? {c : Candidate} (h : r.leaf? key = some c) : c.source = r.source := by
  rw [leaf?] at h
  split at h
  · obtain ⟨_, -, rfl⟩ := Option.map_eq_some_iff.mp h
    rfl
  · cases h

private theorem find?_leaves (ho : r.outcome = .ok t) (key : String) :
    (r.leaves t).find? (·.key == key) = r.leaf? key := by
  rw [leaves, leaf?, ho]
  dsimp only
  induction Table.flatten t with
  | nil => rfl
  | cons e rest ih =>
    obtain ⟨k, v⟩ := e
    have hk : (r.candidate k v).key = k := rfl
    rw [List.map_cons, List.find?_cons, ih, Keyed.get?_cons, hk]
    by_cases h : k = key
    · rw [beq_iff_eq.mpr h, if_pos h, h]
      rfl
    · rw [beq_eq_false_iff_ne.mpr h, if_neg h]

private theorem filterMap_leaves (r : Report) (t : Table) :
    ((Table.flatten t).map fun leaf ↦ Event.discovered (r.candidate leaf.1 leaf.2)).filterMap
      Event.candidate? = r.leaves t := by
  rw [List.filterMap_map]
  exact congrFun List.filterMap_eq_map _

/-- The candidates that are told of a source are its leaves and then general parameters of it. -/
theorem Told.candidates (h : r.Told told) (key : String) :
    ∃ leaves fields, told.filterMap Event.candidate? = leaves ++ fields ∧
      leaves.find? (·.key == key) = r.leaf? key ∧
      ∀ c ∈ leaves ++ fields, c.source = r.source := by
  have hsource : ∀ t : Table, ∀ c ∈ r.leaves t, c.source = r.source := by
    intro t c hc
    obtain ⟨_, -, rfl⟩ := List.mem_map.mp hc
    rfl
  cases h with
  | failed ho =>
    refine ⟨[], [], rfl, ?_, fun _ hc ↦ absurd hc List.not_mem_nil⟩
    rw [leaf?, ho]
    rfl
  | @file t ho hk hl =>
    refine ⟨r.leaves t, [], ?_, find?_leaves ho key, ?_⟩
    · rw [List.filterMap_cons_none rfl, filterMap_leaves, List.append_nil]
    · rw [List.append_nil]
      exact hsource t
  | @overlay t fields ho hk hl hg hs =>
    refine ⟨r.leaves t, (Event.broadcasts fields).filterMap Event.candidate?, ?_,
      find?_leaves ho key, ?_⟩
    · rw [List.cons_append, List.filterMap_cons_none rfl, List.filterMap_append, filterMap_leaves]
    · rw [List.forall_mem_append]
      refine ⟨hsource t, ?_⟩
      intro c hc
      rw [Event.broadcasts, List.filterMap_map] at hc
      obtain ⟨field, hfield, hc⟩ := List.mem_filterMap.mp hc
      obtain ⟨_, _, _, -, -, -, hoffer⟩ := hg field hfield
      obtain rfl := Option.some.inj hc
      change field.2.source = r.source
      rw [hoffer]
      rfl

private theorem Told.first?_eq (h : r.Told told) (key : String) :
    Event.first? key told = (r.leaf? key).or (Event.first? key told) := by
  obtain ⟨leaves, fields, hc, hleaf, -⟩ := h.candidates key
  rw [Event.first?, hc, List.find?_append, hleaf, ← Option.or_assoc, Option.or_self]

/-- What is told of a source is made out to it. -/
theorem Told.source_eq (h : r.Told told) :
    ∀ c ∈ told.filterMap Event.candidate?, c.source = r.source := by
  obtain ⟨leaves, fields, he, -, hs⟩ := h.candidates ""
  rwa [he]

end Report

/-! ### What all sources report for a key -/

namespace Pass

variable {reports : List Report} {told : List (List Event)} {key : String}

private theorem candidatesAt_told (ht : List.Forall₂ Report.Told reports told)
    (hn : (reports.map Report.source).Nodup) {t : Tracker}
    (hfresh : ∀ r ∈ reports, r.source ∉ t.sourcesAt key) :
    (told.flatten.foldl Tracker.observe t).candidatesAt key =
      t.candidatesAt key ++ told.filterMap (Event.first? key) := by
  -- the induction is on the sources, for any tracker that has no candidate of those still to come
  induction ht generalizing t with
  | nil => exact (List.append_nil _).symm
  | @cons r events rest told hr _ ih =>
    rw [List.map_cons, List.nodup_cons] at hn
    rw [List.forall_mem_cons] at hfresh
    have hadded : (events.foldl Tracker.observe t).candidatesAt key =
        t.candidatesAt key ++ (Event.first? key events).toList := by
      rw [Tracker.foldl_observe hr.reporting]
      exact Tracker.candidatesAt_foldl_of_not_mem hfresh.1 hr.source_eq
    have hlater : ∀ later ∈ rest, later.source ∉
        (events.foldl Tracker.observe t).sourcesAt key := by
      intro later hmem hs
      rw [Tracker.sourcesAt, hadded, List.map_append, List.mem_append] at hs
      rcases hs with hs | hs
      · exact hfresh.2 later hmem hs
      · obtain ⟨c, hc, hs⟩ := List.mem_map.mp hs
        have hc := List.mem_of_find?_eq_some (Option.mem_toList.mp hc)
        exact hn.1 (List.mem_map.mpr ⟨later, hmem, hs.symm.trans (hr.source_eq c hc)⟩)
    rw [List.flatten_cons, List.foldl_append, ih hn.2 hlater, hadded, List.append_assoc]
    congr 1
    cases hf : Event.first? key events with
    | none =>
      rw [List.filterMap_cons_none hf]
      rfl
    | some c =>
      rw [List.filterMap_cons_some hf]
      rfl

private theorem filter_first? (ht : List.Forall₂ Report.Told reports told) {p : String → Bool}
    (hp : ∀ r ∈ reports, p r.source = (r.leaf? key).isSome) :
    (told.filterMap (Event.first? key)).filter (fun c ↦ p c.source) =
      reports.filterMap (Report.leaf? key) := by
  induction ht with
  | nil => rfl
  | @cons r events rest told hr _ ih =>
    rw [List.forall_mem_cons] at hp
    have ih := ih hp.2
    cases hl : r.leaf? key with
    | some c =>
      have hf : Event.first? key events = some c := by rw [hr.first?_eq, hl, Option.some_or]
      have hc : p c.source = true := by rw [Report.source_of_leaf? hl, hp.1, hl, Option.isSome_some]
      rw [List.filterMap_cons_some hf, List.filter_cons, if_pos hc, ih, List.filterMap_cons_some hl]
    | none =>
      rw [List.filterMap_cons_none hl, ← ih]
      cases hf : Event.first? key events with
      | none => rw [List.filterMap_cons_none hf]
      | some c =>
        have hc : p c.source = false := by
          rw [hr.source_eq c (List.mem_of_find?_eq_some hf), hp.1, hl, Option.isSome_none]
        rw [List.filterMap_cons_some hf, List.filter_cons, hc, if_neg Bool.false_ne_true]

/-- Whether a source has a leaf under a key. -/
def supplies (reports : List Report) (key source : String) : Bool :=
  reports.any fun r ↦ r.source == source && (r.leaf? key).isSome

private theorem supplies_source (hn : (reports.map Report.source).Nodup) {r : Report}
    (hr : r ∈ reports) : supplies reports key r.source = (r.leaf? key).isSome := by
  rw [Bool.eq_iff_iff, supplies, List.any_eq_true]
  constructor
  · rintro ⟨other, hm, ho⟩
    obtain ⟨hs, hl⟩ := Bool.and_eq_true_iff.mp ho
    obtain rfl := List.inj_on_of_nodup_map hn hm hr (beq_iff_eq.mp hs)
    exact hl
  · intro hl
    exact ⟨r, hr, Bool.and_eq_true_iff.mpr ⟨beq_self_eq_true _, hl⟩⟩

/-- What is discovered of some source is its leaf. -/
theorem leaf?_of_discovered (ht : List.Forall₂ Report.Told reports told) {settling : List Event}
    (hs : Settling reports settling) {c : Candidate}
    (he : .discovered c ∈ told.flatten ++ settling) : ∃ r ∈ reports, r.leaf? c.key = some c := by
  have htold : .discovered c ∈ told.flatten := by
    refine (List.mem_append.mp he).resolve_right fun he ↦ ?_
    rcases hs.cases he with ⟨_, _, he⟩ | ⟨_, _, he⟩ <;> cases he
  obtain ⟨r, hr, events, hevents, he⟩ := exists_told ht htold
  refine ⟨r, hr, ?_⟩
  have hleaf : ∀ {t : Table}, r.outcome = .ok t → Sorted (Table.flatten t) →
      .discovered c ∈ ((Table.flatten t).map fun leaf ↦
        Event.discovered (r.candidate leaf.1 leaf.2)) → r.leaf? c.key = some c := by
    intro t ho hl he
    obtain ⟨⟨k, v⟩, hm, he⟩ := List.mem_map.mp he
    obtain rfl := Event.discovered.inj he
    change r.leaf? k = _
    rw [Report.leaf?, ho]
    exact congrArg (Option.map (r.candidate k)) (hl.mem_iff.mp hm)
  cases hevents with
  | failed ho => simp at he
  | file ho hk hl =>
    rcases List.mem_cons.mp he with he | he
    · cases he
    · exact hleaf ho hl he
  | overlay ho hk hl hg hs =>
    rcases List.mem_cons.mp he with he | he
    · cases he
    · rcases List.mem_append.mp he with he | he
      · exact hleaf ho hl he
      · obtain ⟨_, -, he⟩ := List.mem_map.mp he
        cases he

/-- What goes into a connection is a general parameter of some source. -/
theorem exists_offer (ht : List.Forall₂ Report.Told reports told) {settling : List Event}
    (hs : Settling reports settling) {connection : String} {d : Candidate}
    (he : .broadcast connection d ∈ told.flatten ++ settling) :
    ∃ r ∈ reports, ∃ c, r.Offers c ∧ d = c.rekeyed (connectionKey connection c.key) := by
  rcases List.mem_append.mp he with he | he
  · obtain ⟨r, hr, events, hevents, he⟩ := exists_told ht he
    refine ⟨r, hr, ?_⟩
    cases hevents with
    | failed ho => simp at he
    | file ho hk hl => simp at he
    | overlay ho hk hl hg hs =>
      simp only [List.mem_cons, List.mem_append, List.mem_map, reduceCtorEq, and_false, exists_false,
        false_or, Event.broadcasts] at he
      obtain ⟨field, hfield, he⟩ := he
      cases he
      exact ⟨field.2, hg field hfield, rfl⟩
  · cases hs with
    | settled hg hs =>
      obtain ⟨field, hfield, he⟩ := List.mem_map.mp he
      cases he
      obtain ⟨r, hr, ho⟩ := hg field hfield
      exact ⟨r, hr, field.2, ho, rfl⟩
    | madeUp => simp at he

end Pass

/-! ### What a tracker ends with -/

namespace Pass

/-- Where a candidate that is no leaf of a source comes from, in a tracker that followed a pass. -/
inductive Derived (reports : List Report) (key : Option String) (default : Option Value)
    (events : List Event) (config : Config) (t : Tracker) (k : String) (d : Candidate) : Prop where
  /-- It is a general parameter of a source, in a connection of the result. -/
  | applied {r : Report} {connection : String} {c : Candidate} (hr : r ∈ reports)
      (ho : r.Offers c) (hc : Keyed.contains connection config.connections = true)
      (he : Layers.broadcastEvent connection c ∈ events)
      (hk : k = connectionKey connection c.key) (hd : d = c.rekeyed k)
  /-- It copies a candidate for a root key of some source that moved to a made-up connection. -/
  | copied {r : Report} {field : String} {keys : List String} {root : Candidate} (hr : r ∈ reports)
      (hf : r.HasKey field) (hm : root ∈ t.candidatesAt field)
      (he : .synthesized Parameter.defaultConnection keys ∈ events) (hkeys : field ∈ keys)
      (hk : k = connectionKey Parameter.defaultConnection field) (hd : d = root.rekeyed k)
  /-- It is the caller's default, and the only candidate. -/
  | default {v : Value} (hk : key = some k) (hv : default = some v)
      (he : .defaultUsed k v ∈ events)
      (hd : d = Candidate.new k v History.defaultSource .overlay) (ho : t.candidatesAt k = [d])

variable {reports : List Report} {key : Option String} {default : Option Value} {config : Config}
  {told : List (List Event)} {settling placed : List Event}

/-- Placing a default leaves candidates as they are, or adds it as the only one. -/
theorem candidatesAt_placed (hp : Placed key default placed) {t : Tracker} (h : t.Going)
    (k : String) :
    (placed.foldl Tracker.observe t).candidatesAt k = t.candidatesAt k ∨
      ∃ v, key = some k ∧ default = some v ∧ .defaultUsed k v ∈ placed ∧
        (placed.foldl Tracker.observe t).candidatesAt k =
          [Candidate.new k v History.defaultSource .overlay] := by
  cases hp with
  | unused => exact Or.inl rfl
  | @used k' v hk hv =>
    have hmark := Tracker.candidatesAt_markDefault h k' v k
    by_cases hnone : k' = k ∧ t.candidatesAt k = []
    · rw [if_pos hnone] at hmark
      obtain ⟨rfl, -⟩ := hnone
      exact Or.inr ⟨v, hk, hv, List.mem_singleton_self _, hmark⟩
    · rw [if_neg hnone] at hmark
      exact Or.inl hmark

private theorem exists_moved (ht : List.Forall₂ Report.Told reports told)
    (hs : Settling reports settling) {connection : String} {keys : List String}
    (he : .synthesized connection keys ∈ told.flatten ++ settling) :
    connection = Parameter.defaultConnection ∧ ∀ field ∈ keys, ∃ r ∈ reports, r.HasKey field := by
  rcases List.mem_append.mp he with he | he
  · exact absurd (reporting_told ht _ he) id
  · cases hs with
    | settled =>
      obtain ⟨_, -, he⟩ := List.mem_map.mp he
      cases he
    | madeUp hk hs =>
      cases List.mem_singleton.mp he
      exact ⟨rfl, fun field hf ↦ (hk field hf).2⟩

/-- The end of a pass adds candidates behind those that are there. -/
theorem prefix_closing {t : Tracker} (h : t.Going) {events : List Event}
    (hc : ∀ e ∈ events, e.Closing) (k : String) :
    t.candidatesAt k <+: (events.foldl Tracker.observe t).candidatesAt k := by
  apply Tracker.prefix_foldl_observe h
  · exact fun he ↦ hc _ he
  · rintro e he c rfl
    exact hc _ he

/-- A tracker that has followed all sources goes on. -/
theorem going_told (ht : List.Forall₂ Report.Told reports told) :
    (told.flatten.foldl Tracker.observe {}).Going := by
  apply Tracker.going_empty.foldl_observe
  rintro e he c rfl
  exact reporting_told ht _ he

/-- So it does at the end of a pass. -/
theorem going_closing {t : Tracker} (h : t.Going) {events : List Event}
    (hc : ∀ e ∈ events, e.Closing) : (events.foldl Tracker.observe t).Going := by
  apply h.foldl_observe
  rintro e he c rfl
  exact hc _ he

/-- Before a default is placed, candidates are traced to the events. -/
theorem explained_settled (ht : List.Forall₂ Report.Told reports told)
    (hs : Settling reports settling) :
    (settling.foldl Tracker.observe (told.flatten.foldl Tracker.observe {})).Explained
      (told.flatten ++ settling) := by
  rw [← List.foldl_append]
  apply Tracker.explained_foldl
  · rintro e he k v rfl
    rcases List.mem_append.mp he with he | he
    · exact reporting_told ht _ he
    · rcases hs.cases he with ⟨_, _, he⟩ | ⟨_, _, he⟩ <;> cases he
  · rintro e he c rfl
    rcases List.mem_append.mp he with he | he
    · exact reporting_told ht _ he
    · exact hs.closing _ he

/-- The tracker at the end of a pass, before histories are closed. -/
def lastTracker (told : List (List Event)) (settling placed : List Event) : Tracker :=
  placed.foldl Tracker.observe
    (settling.foldl Tracker.observe (told.flatten.foldl Tracker.observe {}))

/-- It goes on. -/
theorem going_lastTracker (ht : List.Forall₂ Report.Told reports told)
    (hs : Settling reports settling) (hp : Placed key default placed) :
    (lastTracker told settling placed).Going :=
  going_closing (going_closing (going_told ht) hs.closing) hp.closing

private theorem filter_supplies (hn : (reports.map Report.source).Nodup)
    (ht : List.Forall₂ Report.Told reports told) (hs : Settling reports settling)
    (hp : Placed key default placed) (k : String) :
    ((lastTracker told settling placed).candidatesAt k).filter
        (fun d ↦ supplies reports k d.source) = reports.filterMap (Report.leaf? k) := by
  have hfirst : (told.flatten.foldl Tracker.observe {}).candidatesAt k =
      told.filterMap (Event.first? k) :=
    candidatesAt_told ht hn fun _ _ ↦ List.not_mem_nil
  have hsupplies : ∀ r ∈ reports, supplies reports k r.source = (r.leaf? k).isSome :=
    fun _ hr ↦ supplies_source hn hr
  have hleaves := filter_first? ht hsupplies
  rw [← hfirst] at hleaves
  rw [← hleaves]
  -- the rest of the pass adds behind the leaves, and none of a source that has one there
  apply Tracker.filter_of_prefix
  · have hgoing := going_told ht
    exact (prefix_closing hgoing hs.closing k).trans
      (prefix_closing (going_closing hgoing hs.closing) hp.closing k)
  · exact (going_lastTracker ht hs hp).nodup_sourcesAt k
  · intro source hsource
    obtain ⟨r, hr, ho⟩ := List.any_eq_true.mp hsource
    obtain ⟨hrs, hl⟩ := Bool.and_eq_true_iff.mp ho
    obtain ⟨c, hc⟩ := Option.isSome_iff_exists.mp hl
    have hmem : c ∈ reports.filterMap (Report.leaf? k) := List.mem_filterMap.mpr ⟨r, hr, hc⟩
    rw [← hleaves] at hmem
    rw [← beq_iff_eq.mp hrs, ← Report.source_of_leaf? hc]
    exact List.mem_map_of_mem (List.mem_filter.mp hmem).1

private theorem derived_lastTracker (ht : List.Forall₂ Report.Told reports told)
    (hs : Settling reports settling) (hp : Placed key default placed) {events : List Event}
    (he : told.flatten ++ settling ++ placed ⊆ events)
    (hconnected : ∀ connection c, .broadcast connection c ∈ events →
      Keyed.contains connection config.connections = true)
    {k : String} {d : Candidate} (hd : d ∈ (lastTracker told settling placed).candidatesAt k)
    (hother : supplies reports k d.source = false) :
    Derived reports key default events config (lastTracker told settling placed) k d := by
  obtain ⟨hearly, hplaced⟩ := List.append_subset.mp he
  have hgoing := going_closing (going_told ht) hs.closing
  rcases candidatesAt_placed hp hgoing k with heq | ⟨v, hk, hv, hmem, heq⟩
  · rw [lastTracker, heq] at hd
    cases explained_settled ht hs k d hd with
    | discovered hmem =>
      obtain ⟨r, hr, hleaf⟩ := leaf?_of_discovered ht hs hmem
      have hyes : supplies reports d.key d.source = true := by
        rw [supplies, List.any_eq_true]
        refine ⟨r, hr, Bool.and_eq_true_iff.mpr ⟨?_, ?_⟩⟩
        · exact beq_iff_eq.mpr (Report.source_of_leaf? hleaf).symm
        · rw [hleaf, Option.isSome_some]
      rw [hyes] at hother
      cases hother
    | applied hmem =>
      obtain ⟨r, hr, c, ho, rfl⟩ := exists_offer ht hs hmem
      exact .applied hr ho (hconnected _ _ (hearly hmem)) (hearly hmem) rfl rfl
    | @copied connection field keys root hmem hf hr _ =>
      obtain ⟨rfl, hkeys⟩ := exists_moved ht hs hmem
      obtain ⟨r, hreport, hkey⟩ := hkeys field hf
      have hroot := (prefix_closing hgoing hp.closing field).subset hr
      exact .copied hreport hkey hroot (hearly hmem) hf rfl rfl
  · rw [lastTracker, heq] at hd
    obtain rfl := List.mem_singleton.mp hd
    exact .default hk hv (hplaced hmem) rfl heq

private theorem Derived.finalize {t : Tracker} {events : List Event} {k : String} {d : Candidate}
    (h : Derived reports key default events config t k d) (c : Config) :
    Derived reports key default events config (t.finalize c) k d := by
  cases h with
  | applied hr ho hc he hk hd => exact .applied hr ho hc he hk hd
  | copied hr hf hm he hkeys hk hd =>
    exact .copied hr hf (by rwa [Tracker.candidatesAt_finalize]) he hkeys hk hd
  | default hk hv he hd ho =>
    exact .default hk hv he hd (by rwa [Tracker.candidatesAt_finalize])

end Pass

private theorem SourceKind.perm_inOrder {α : Type} (kind : α → SourceKind) (l : List α) :
    (inOrder kind l).Perm l := by
  have hkinds : l.filter (kind · = .overlay) = l.filter fun a ↦ !decide (kind a = .file) := by
    apply List.filter_congr
    intro a _
    cases kind a <;> rfl
  rw [inOrder, hkinds]
  exact List.filter_append_perm _ l

namespace Resolver

variable {r : Resolver} {w : World} {key : Option String} {default : Option Value} {config : Config}
  {t : Tracker}

/-- After a resolution with sources of different names no candidate is lost or made up. A history has
one candidate of a source at most; a leaf of a source is that one; the leaves of all sources are in
processing order; and every other candidate is derived. -/
theorem resolve_candidates (hn : (r.sources.map Source.name).Nodup)
    (hc : (r.resolve w key default).1 = .ok config)
    (ht : (r.resolve w key default).2.observers.history = some t) :
    let sources := (SourceKind.inOrder Source.kind r.sources).map fun s ↦ (s.ask w key).1
    Sorted t.histories ∧
      (∀ k, (t.sourcesAt k).Nodup) ∧
      (∀ s ∈ r.sources, ∀ table, (s.ask w key).1.outcome = .ok table →
        ∀ k v, get? k (Table.flatten table) = some v →
          (t.candidatesAt k).filter (·.source == s.name) = [(s.ask w key).1.candidate k v]) ∧
      ∀ k,
        (t.candidatesAt k).filter (fun d ↦ Pass.supplies sources k d.source) =
          sources.filterMap (Report.leaf? k) ∧
        ∀ d ∈ t.candidatesAt k, Pass.supplies sources k d.source = false →
          Pass.Derived sources key default (r.events w key default) config t k d := by
  intro sources
  have hsources : reports (r.askAll w key) = sources := r.reports_askAll w key
  have hnames : (sources.map Report.source).Nodup := by
    have hmap : sources.map Report.source =
        (SourceKind.inOrder Source.kind r.sources).map Source.name := by
      rw [List.map_map]
      exact List.map_congr_left fun s _ ↦ s.source_ask w key
    rw [hmap]
    exact ((SourceKind.perm_inOrder _ _).map _).nodup_iff.mpr hn
  have hconnected : ∀ connection c, .broadcast connection c ∈ r.events w key default →
      Keyed.contains connection config.connections = true := fun _ _ he ↦
    Pass.contains_of_broadcast hc he
  have hstream : Pass.Stream (reports (r.askAll w key)) key default (r.resolve w key default).1
      (r.events w key default) := Pass.stream_run _ key default
  rw [hc, hsources] at hstream
  generalize hevents : r.events w key default = events at hstream hconnected
  -- the call came to a configuration, so its stream can only be one that was completed
  cases hstream with
  | @completed told settling placed _ htold hs hp =>
    have hlast : t = (Pass.lastTracker told settling placed).finalize config := by
      rw [history_resolve hevents] at ht
      obtain ⟨_, -, rfl⟩ := Option.map_eq_some_iff.mp ht
      rw [List.foldl_append, List.foldl_append, List.foldl_append]
      rfl
    have hgoing := Pass.going_lastTracker htold hs hp
    have hat : ∀ k, t.candidatesAt k = (Pass.lastTracker told settling placed).candidatesAt k := by
      intro k
      rw [hlast, Tracker.candidatesAt_finalize]
    have hnodup : ∀ k, (t.sourcesAt k).Nodup := by
      intro k
      rw [Tracker.sourcesAt, hat]
      exact hgoing.nodup_sourcesAt k
    have hleaves : ∀ k, (t.candidatesAt k).filter (fun d ↦ Pass.supplies sources k d.source) =
        sources.filterMap (Report.leaf? k) := by
      intro k
      rw [hat]
      exact Pass.filter_supplies hnames htold hs hp k
    refine ⟨?_, hnodup, ?_, fun k ↦ ⟨hleaves k, ?_⟩⟩
    · rw [hlast]
      exact hgoing.sorted_finalize config
    · intro s hs table ho k v hv
      have hmem : (s.ask w key).1.candidate k v ∈ sources.filterMap (Report.leaf? k) := by
        refine List.mem_filterMap.mpr ⟨(s.ask w key).1, ?_, ?_⟩
        · exact List.mem_map_of_mem ((SourceKind.mem_inOrder _).mpr hs)
        · rw [Report.leaf?, ho]
          exact congrArg (Option.map _) hv
      rw [← hleaves] at hmem
      rw [← s.source_ask w key]
      exact filter_of_nodup (hnodup k) (List.mem_filter.mp hmem).1
    · intro d hd hother
      rw [hat] at hd
      rw [hlast]
      apply Pass.Derived.finalize
      apply Pass.derived_lastTracker htold hs hp _ hconnected hd hother
      exact List.subset_cons_of_subset _ (List.subset_append_left _ _)

/-- The role of the later overlay is its leaf at the root; those of both are derived in the connection
of the file. -/
theorem resolve_candidates_role :
    let sources := (SourceKind.inOrder Source.kind roleTwice.sources).map fun s ↦
      (s.ask {} none).1
    ∃ config t, (roleTwice.resolve {} none none).1 = .ok config ∧
      (roleTwice.resolve {} none none).2.observers.history = some t ∧
      (t.candidatesAt "role").filter (·.source == "flags") =
        [Candidate.new "role" (.string "cli-role") "flags" .overlay] ∧
      t.sourcesAt "connections.a.role" = ["env", "flags"] ∧
      ∀ d ∈ t.candidatesAt "connections.a.role",
        Pass.Derived sources none none (roleTwice.events {} none none) config t
          "connections.a.role" d := by
  intro sources
  have hc : (roleTwice.resolve {} none none).1 = .ok _ := rfl
  refine ⟨_, _, hc, rfl, ?_⟩
  obtain ⟨-, -, hleaf, hall⟩ := resolve_candidates (by decide) hc rfl
  refine ⟨?_, rfl, ?_⟩
  · exact hleaf (.fixed { name := "flags", kind := .overlay, data := [("role", .string "cli-role")] })
      (by simp [roleTwice, ofTables, attach]) _ rfl "role" _ rfl
  · intro d hd
    refine (hall "connections.a.role").2 d hd (List.any_eq_false.mpr fun report hreport ↦ ?_)
    have hnone : ∀ report ∈ sources, (report.leaf? "connections.a.role").isSome = false := by decide
    rw [hnone report hreport, Bool.and_false]
    exact Bool.false_ne_true

end Resolver

end LayeredConfig
