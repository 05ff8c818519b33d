import LayeredConfig.Proofs.Refusal
import Mathlib.Data.List.Forall2

/-!
# The stream of events

What a pass tells its observers has a fixed form. It begins; then comes each source, files before
overlays, either with its failure or with its table, the leaves of it, and the general parameters of
an overlay that went into connections; then general parameters settle or a connection is made up;
then a default may be used; and the configuration is told last. A pass that fails stops on the way.
-/

namespace LayeredConfig

open Keyed (Sorted get?)

/-! ### The form of a stream -/

/-- A general parameter at the root of the table that a source answered with. -/
def Report.Offers (r : Report) (c : Candidate) : Prop :=
  ∃ t key v, r.outcome = .ok t ∧ (key, v) ∈ t ∧ isGeneral (key, v) = true ∧ c = r.candidate key v

/-- A key at the root of the table that a source answered with. -/
def Report.HasKey (r : Report) (key : String) : Prop :=
  ∃ t, r.outcome = .ok t ∧ Keyed.contains key t = true

namespace Event

/-- The events of general parameters that went into connections. -/
def broadcasts (fields : List (String × Candidate)) : List Event :=
  fields.map fun field ↦ Layers.broadcastEvent field.1 field.2

/-- Fields in the order of connections and, within one connection, of keys. -/
def Precedes (field next : String × Candidate) : Prop :=
  field.1 < next.1 ∨ (field.1 = next.1 ∧ field.2.key < next.2.key)

end Event

/-- What is told of one source: its failure; or its table and the leaves of that in key order, and,
for an overlay, what of its general parameters went into connections. Their keys are in order since
those of a table are. -/
inductive Report.Told (r : Report) : List Event → Prop where
  | failed {e : Error} (ho : r.outcome = .error e) :
      Told r [.sourceFailed r.source (Secret.sanitize e.message)]
  | file {t : Table} (ho : r.outcome = .ok t) (hk : r.kind = .file)
      (hl : Sorted (Table.flatten t)) :
      Told r (.received r.source .file t ::
        (Table.flatten t).map fun leaf ↦ .discovered (r.candidate leaf.1 leaf.2))
  | overlay {t : Table} {fields : List (String × Candidate)} (ho : r.outcome = .ok t)
      (hk : r.kind = .overlay) (hl : Sorted (Table.flatten t))
      (hg : ∀ field ∈ fields, r.Offers field.2) (hs : Sorted t → fields.Pairwise Event.Precedes) :
      Told r (.received r.source .overlay t ::
        ((Table.flatten t).map fun leaf ↦ .discovered (r.candidate leaf.1 leaf.2)) ++
          Event.broadcasts fields)

namespace Pass

/-- What is told once all sources have had their turn: which general parameters settled into
connections, or which connection was made up. -/
inductive Settling (reports : List Report) : List Event → Prop where
  | settled {fields : List (String × Candidate)}
      (hg : ∀ field ∈ fields, ∃ r ∈ reports, r.Offers field.2)
      (hs : fields.Pairwise Event.Precedes) : Settling reports (Event.broadcasts fields)
  | madeUp {keys : List String}
      (hk : ∀ key ∈ keys, Parameter.isEligible key = true ∧ ∃ r ∈ reports, r.HasKey key)
      (hs : keys.Pairwise (· < ·)) :
      Settling reports [.synthesized Parameter.defaultConnection keys]

/-- Nothing may be told either. -/
theorem settling_nil (reports : List Report) : Settling reports [] := by
  have hnone : Settling reports (Event.broadcasts []) :=
    .settled (fun _ he ↦ absurd he List.not_mem_nil) .nil
  exact hnone

/-- What is told of a caller's default. -/
inductive Placed (key : Option String) (default : Option Value) : List Event → Prop where
  | unused : Placed key default []
  | used {k : String} {v : Value} (hk : key = some k) (hv : default = some v) :
      Placed key default [.defaultUsed k v]

/-- The events of a pass and what it comes to. -/
inductive Stream (reports : List Report) (key : Option String) (default : Option Value) :
    Except Error Config → List Event → Prop where
  | completed {told : List (List Event)} {settling placed : List Event} {c : Config}
      (ht : List.Forall₂ Report.Told reports told) (hs : Settling reports settling)
      (hp : Placed key default placed) :
      Stream reports key default (.ok c)
        (.reset :: (told.flatten ++ settling ++ placed ++ [.finalized c]))
  /-- The default has no place. -/
  | rejected {told : List (List Event)} {settling : List Event} {cause : Misplaced}
      (ht : List.Forall₂ Report.Told reports told) (hs : Settling reports settling) :
      Stream reports key default (.error (.validation cause))
        (.reset :: (told.flatten ++ settling))
  /-- A source is the first whose answer is no configuration. -/
  | stopped {before after : List Report} {r : Report} {told : List (List Event)}
      {cause : Malformed} (hr : reports = before ++ r :: after)
      (hb : ∀ b ∈ before, ¬ b.Malformed) (hm : r.Malformed)
      (ht : List.Forall₂ Report.Told before told) :
      Stream reports key default (.error (.malformedOutput r.source cause))
        (.reset :: told.flatten)

end Pass

/-! ### The parts of a stream -/

/-- What is told of a source is about it and what it supplies. -/
theorem Report.Told.reporting {r : Report} {told : List Event} (h : r.Told told) :
    ∀ e ∈ told, e.Reporting := by
  have hleaves : ∀ t : Table, ∀ e ∈ (Table.flatten t).map fun leaf ↦
      Event.discovered (r.candidate leaf.1 leaf.2), e.Reporting := by
    intro t e he
    obtain ⟨_, -, rfl⟩ := List.mem_map.mp he
    exact trivial
  cases h with
  | failed ho => exact List.forall_mem_singleton.mpr trivial
  | file ho hk hl => exact List.forall_mem_cons.mpr ⟨trivial, hleaves _⟩
  | overlay ho hk hl hg hs =>
    rw [List.cons_append, List.forall_mem_cons, List.forall_mem_append]
    refine ⟨trivial, hleaves _, ?_⟩
    intro e he
    obtain ⟨_, -, rfl⟩ := List.mem_map.mp he
    exact trivial

namespace Pass

variable {reports : List Report} {told : List (List Event)} {settling placed : List Event}
  {key : Option String} {default : Option Value}

/-- What is told of all reports is told of one of them. -/
theorem exists_told (ht : List.Forall₂ Report.Told reports told) {e : Event}
    (he : e ∈ told.flatten) : ∃ r ∈ reports, ∃ events, r.Told events ∧ e ∈ events := by
  induction ht with
  | nil => cases he
  | @cons r events rest told hr _ ih =>
    rw [List.flatten_cons, List.mem_append] at he
    rcases he with he | he
    · exact ⟨r, List.mem_cons_self, events, hr, he⟩
    · obtain ⟨r', hmem, hr'⟩ := ih he
      exact ⟨r', List.mem_cons_of_mem _ hmem, hr'⟩

/-- What is told of sources is about them and what they supply. -/
theorem reporting_told (ht : List.Forall₂ Report.Told reports told) :
    ∀ e ∈ told.flatten, e.Reporting := by
  intro e he
  obtain ⟨r, -, events, hr, he⟩ := exists_told ht he
  exact hr.reporting e he

/-- In the end general parameters go into connections, or one is made up. -/
theorem Settling.cases (hs : Settling reports settling) {e : Event} (he : e ∈ settling) :
    (∃ connection c, e = .broadcast connection c) ∨
      ∃ connection keys, e = .synthesized connection keys := by
  cases hs with
  | settled =>
    obtain ⟨_, -, rfl⟩ := List.mem_map.mp he
    exact Or.inl ⟨_, _, rfl⟩
  | madeUp =>
    obtain rfl := List.mem_singleton.mp he
    exact Or.inr ⟨_, _, rfl⟩

/-- This is part of the end of a pass. -/
theorem Settling.closing (hs : Settling reports settling) : ∀ e ∈ settling, e.Closing := by
  intro e he
  rcases hs.cases he with ⟨_, _, rfl⟩ | ⟨_, _, rfl⟩ <;> exact trivial

/-- So is a default. -/
theorem Placed.closing (hp : Placed key default placed) : ∀ e ∈ placed, e.Closing := by
  intro e he
  cases hp with
  | unused => cases he
  | used =>
    obtain rfl := List.mem_singleton.mp he
    exact trivial

end Pass

/-! ### What layers keep between two sources -/

/-- The root of a split table is part of it. -/
theorem Config.mem_of_mem_root {t : Table} {c : Config} (hs : ofNested t = .ok c)
    {e : String × Value} (he : e ∈ c.root) : e ∈ t := by
  rw [(ofNested_ok hs).1, Keyed.erase_eq_filter] at he
  exact (List.mem_filter.mp he).1

namespace Layers

/-- The candidates of a root are what the report offers. -/
theorem offers_of_mem_candidates {r : Report} {t : Table} {config : Config}
    (ho : r.outcome = .ok t) (hs : Config.ofNested t = .ok config) {c : Candidate}
    (hc : c ∈ candidates r config.root) : r.Offers c := by
  obtain ⟨⟨key, v⟩, he, rfl⟩ := List.mem_map.mp hc
  obtain ⟨he, hg⟩ := List.mem_filter.mp he
  exact ⟨t, key, v, ho, Config.mem_of_mem_root hs he, hg, rfl⟩

/-- Layers over some reports: root, connections and general parameters are in order; the reports have
the keys of the root; and they offer the general parameters, which stand under their keys. -/
structure Sound (reports : List Report) (l : Layers) : Prop where
  root : Sorted l.config.root
  held : ∀ key, Keyed.contains key l.config.root = true → ∃ r ∈ reports, r.HasKey key
  connections : Sorted l.config.connections
  general : Sorted l.general
  offered : ∀ e ∈ l.general, e.2.key = e.1 ∧ ∃ r ∈ reports, r.Offers e.2

variable {reports : List Report} {l : Layers} {r : Report} {t : Table} {config : Config}

private theorem sound_empty : Sound reports {} where
  root := Keyed.sorted_nil
  held := fun _ hc ↦ absurd hc Bool.false_ne_true
  connections := Keyed.sorted_nil
  general := Keyed.sorted_nil
  offered := fun _ he ↦ absurd he List.not_mem_nil

private theorem Sound.offered_note (h : l.Sound reports) (hr : r ∈ reports) (ho : r.outcome = .ok t)
    (hs : Config.ofNested t = .ok config) :
    ∀ e ∈ note l.general (candidates r config.root),
      e.2.key = e.1 ∧ ∃ r ∈ reports, r.Offers e.2 := by
  intro e he
  rcases Keyed.mem_of_mem_overlay he with he | he
  · exact h.offered e he
  · obtain ⟨c, hc, rfl⟩ := List.mem_map.mp he
    exact ⟨rfl, r, hr, offers_of_mem_candidates ho hs hc⟩

/-- Records are merged in under their names. -/
theorem Sound.sorted_joined (h : l.Sound reports) (config : Config) :
    Sorted (l.joined config) :=
  h.connections.merge (fun old fields ↦ Table.deepMerge (old.getD []) fields) config.connections

private theorem Sound.held_root (h : l.Sound reports) (hr : r ∈ reports) (ho : r.outcome = .ok t)
    (hs : Config.ofNested t = .ok config) {key : String}
    (hk : (Keyed.contains key l.config.root || Keyed.contains key config.root) = true) :
    ∃ r ∈ reports, r.HasKey key := by
  rcases Bool.or_eq_true_iff.mp hk with hk | hk
  · exact h.held key hk
  · obtain ⟨v, hv⟩ := Keyed.contains_iff.mp hk
    exact ⟨r, hr, t, ho, Keyed.contains_iff.mpr ⟨v, Config.mem_of_mem_root hs hv⟩⟩

/-- The keys of the two parts of a table are its keys. -/
theorem contains_split (p : String × Value → Bool) (t : Table) (key : String) :
    (Keyed.contains key (t.filter fun e ↦ !p e) || Keyed.contains key (t.filter p)) =
      Keyed.contains key t := by
  rw [Bool.eq_iff_iff, Bool.or_eq_true_iff]
  simp only [Keyed.contains_iff, List.mem_filter, ← exists_or, ← and_or_left]
  refine exists_congr fun v ↦ and_iff_left ?_
  cases p (key, v) <;> simp

/-- One more report leaves layers sound. -/
theorem Sound.add (h : l.Sound reports) (hr : r ∈ reports) (ho : r.outcome = .ok t)
    (hs : Config.ofNested t = .ok config) : (l.add r config).1.Sound reports := by
  rw [Layers.add]
  split
  · exact
      { root := h.root.overlay _
        held := fun key hk ↦ h.held_root hr ho hs (Keyed.contains_overlay _ _ key ▸ hk)
        connections := h.connections.overlay _
        general := h.general.overlay _
        offered := h.offered_note hr ho hs }
  · rw [addOverlay_eq]
    exact
      { root := Table.sorted_deepMerge (Table.sorted_deepMerge h.root _) _
        held := by
          intro key hk
          rw [Table.deepMerge_eq_merge, Keyed.contains_merge, Table.deepMerge_eq_merge,
            Keyed.contains_merge, Bool.or_assoc, contains_split] at hk
          exact h.held_root hr ho hs hk
        connections := (h.sorted_joined config).map fun name record ↦
          fill record (l.taken r config (name, record))
        general := h.general.overlay _
        offered := h.offered_note hr ho hs }

/-- What goes into each of some connections is in order if it is so for every one of them. -/
theorem pairwise_precedes {α : Type} {connections : Keyed α} (h : Sorted connections)
    {fields : String × α → List Candidate}
    (hf : ∀ e ∈ connections, (fields e).Pairwise (·.key < ·.key)) :
    (connections.flatMap fun e ↦ (fields e).map (e.1, ·)).Pairwise Event.Precedes := by
  rw [List.pairwise_flatMap]
  constructor
  · intro e he
    rw [List.pairwise_map]
    exact (hf e he).imp fun hlt ↦ Or.inr ⟨rfl, hlt⟩
  · apply h.imp
    intro e next hlt field hfield later hlater
    obtain ⟨_, -, rfl⟩ := List.mem_map.mp hfield
    obtain ⟨_, -, rfl⟩ := List.mem_map.mp hlater
    exact Or.inl hlt

private theorem Sound.events_addOverlay (h : l.Sound reports) (ho : r.outcome = .ok t)
    (hs : Config.ofNested t = .ok config) :
    ∃ fields, (l.addOverlay r config).2 = Event.broadcasts fields ∧
      (∀ field ∈ fields, r.Offers field.2) ∧
      (Sorted t → fields.Pairwise Event.Precedes) := by
  refine ⟨(l.joined config).flatMap fun e ↦ (l.taken r config e).map (e.1, ·), ?_, ?_, ?_⟩
  · rw [addOverlay_eq, Event.broadcasts, List.map_flatMap]
    simp only [List.map_map]
    rfl
  · intro field hfield
    obtain ⟨e, -, hfield⟩ := List.mem_flatMap.mp hfield
    obtain ⟨c, hc, rfl⟩ := List.mem_map.mp hfield
    exact offers_of_mem_candidates ho hs (List.mem_filter.mp hc).1
  · intro ht
    have hroot : Sorted config.root := by
      rw [(Config.ofNested_ok hs).1]
      exact ht.erase _
    apply pairwise_precedes (h.sorted_joined config)
    intro e _
    apply List.Pairwise.filter
    rw [candidates, List.pairwise_map]
    exact hroot.filter _

/-- The general parameters that stand at the root and are missing in a record. -/
def lacking (l : Layers) (record : Table) : List Candidate :=
  let general := l.general.filter (stands l.config.root)
  (Table.fillMissing record (Keyed.mapValues (fun _ c ↦ c.value) general)).1.filterMap
    fun key ↦ get? key general

private theorem Sound.lacking (h : l.Sound reports) (record : Table) :
    (l.lacking record).Pairwise (·.key < ·.key) ∧
      ∀ c ∈ l.lacking record, ∃ r ∈ reports, r.Offers c := by
  have hfound : ∀ {key c}, get? key (l.general.filter (stands l.config.root)) = some c →
      c.key = key ∧ ∃ r ∈ reports, r.Offers c := fun hc ↦
    h.offered _ (List.mem_filter.mp (Keyed.mem_of_get? hc)).1
  constructor
  · rw [Layers.lacking, List.pairwise_filterMap]
    have hkeys : (Table.fillMissing record (Keyed.mapValues (fun _ c ↦ c.value)
        (l.general.filter (stands l.config.root)))).1.Pairwise (· < ·) := by
      rw [Table.fillMissing, Keyed.keys, List.pairwise_map]
      exact Sorted.filter ((h.general.filter _).map fun _ c ↦ c.value) _
    apply hkeys.imp
    intro key next hlt c hc d hd
    rw [(hfound hc).1, (hfound hd).1]
    exact hlt
  · intro c hc
    obtain ⟨key, -, hc⟩ := List.mem_filterMap.mp hc
    exact (hfound hc).2

private theorem settle_events (hc : l.config.connections ≠ []) :
    l.settle.2 = Event.broadcasts
      (l.config.connections.flatMap fun e ↦ (l.lacking e.2).map (e.1, ·)) := by
  rw [settle, if_neg (fun he ↦ hc (List.isEmpty_iff.mp he))]
  simp only [List.flatMap_map, Event.broadcasts, lacking, List.map_flatMap, List.map_filterMap,
    Option.map_map]
  rfl

private theorem synthesize_settle (hc : l.config.connections ≠ []) :
    (Pass.synthesize l.settle.1).2 = [] := by
  obtain ⟨e, rest, hl⟩ := List.exists_cons_of_ne_nil hc
  rw [settle, hl]
  rfl

private theorem Sound.moved (h : l.Sound reports) :
    (∀ key ∈ l.config.synthesize.1,
      Parameter.isEligible key = true ∧ ∃ r ∈ reports, r.HasKey key) ∧
      l.config.synthesize.1.Pairwise (· < ·) := by
  rw [Config.synthesize]
  split
  · exact ⟨fun _ hk ↦ absurd hk List.not_mem_nil, .nil⟩
  · constructor
    · intro key hk
      obtain ⟨⟨_, v⟩, he, rfl⟩ := List.mem_map.mp hk
      obtain ⟨he, hm⟩ := List.mem_filter.mp he
      exact ⟨(Bool.and_eq_true_iff.mp hm).1, h.held _ (Keyed.contains_iff.mpr ⟨v, he⟩)⟩
    · rw [Keyed.keys, List.pairwise_map]
      exact h.root.filter _

private theorem Sound.settling (h : l.Sound reports) :
    Pass.Settling reports (l.settle.2 ++ (Pass.synthesize l.settle.1).2) := by
  by_cases hc : l.config.connections = []
  · have hs : l.settle = (l.config, []) := by rw [settle, hc]; rfl
    rw [hs, List.nil_append, Pass.synthesize]
    dsimp only
    split
    · exact Pass.settling_nil reports
    · obtain ⟨hk, hs⟩ := h.moved
      exact .madeUp hk hs
  · rw [synthesize_settle hc, settle_events hc, List.append_nil]
    apply Pass.Settling.settled
    · intro field hfield
      obtain ⟨e, -, hfield⟩ := List.mem_flatMap.mp hfield
      obtain ⟨c, hmem, rfl⟩ := List.mem_map.mp hfield
      exact (h.lacking e.2).2 c hmem
    · exact pairwise_precedes h.connections fun e _ ↦ (h.lacking e.2).1

end Layers

/-! ### The stream of a pass -/

namespace Pass

variable {reports : List Report}

private theorem told_of_answered {all : List Report} {l : Layers} (h : l.Sound all) {r : Report}
    {t : Table} {c : Config} (ho : r.outcome = .ok t) (hs : Config.ofNested t = .ok c) :
    r.Told (r.announce t ++ (l.add r c).2) := by
  have hl : Sorted (Table.flatten t) := Keyed.sorted_ofList _
  rw [Layers.add, Report.announce]
  cases hk : r.kind with
  | file =>
    dsimp only
    rw [List.append_nil]
    exact .file ho hk hl
  | overlay =>
    obtain ⟨fields, he, hg, hs⟩ := h.events_addOverlay ho hs
    dsimp only
    rw [he]
    exact .overlay ho hk hl hg hs

/-- Without a malformed one, a merge tells of all reports, one after the other. -/
theorem merge_told {all : List Report} {l : Layers} (h : l.Sound all)
    (hall : ∀ r ∈ reports, r ∈ all) (hquiet : ∀ r ∈ reports, r.malformed? = none) :
    ∃ l' told, (merge l reports).layers = .ok l' ∧ l'.Sound all ∧
      (merge l reports).events = told.flatten ∧ List.Forall₂ Report.Told reports told := by
  induction reports generalizing l with
  | nil => exact ⟨l, [], rfl, h, rfl, .nil⟩
  | cons r rest ih =>
    rw [List.forall_mem_cons] at hall hquiet
    cases r.step with
    | failed e ho =>
      obtain ⟨l', told, hl, hsound, he, ht⟩ := ih h hall.2 hquiet.2
      rw [merge_failed ho]
      exact ⟨l', _ :: told, hl, hsound, congrArg (_ ++ ·) he, .cons (.failed ho) ht⟩
    | malformed t cause ho hs =>
      rw [Report.malformed?_of_not_split ho hs] at hquiet
      cases hquiet.1
    | answered t c ho hs =>
      obtain ⟨l', told, hl, hsound, he, ht⟩ := ih (h.add hall.1 ho hs) hall.2 hquiet.2
      rw [merge_answered ho hs]
      exact ⟨l', _ :: told, hl, hsound, congrArg (_ ++ ·) he, .cons (told_of_answered h ho hs) ht⟩

/-- Placing a default is told if it is used. -/
theorem placed_place {c : Config} {key : Option String} {default : Option Value}
    {placed : Config × List Event} (h : place c key default = .ok placed) :
    Placed key default placed.2 := by
  unfold place at h
  split at h
  · split at h
    · cases h
      exact .unused
    · split at h
      · cases h
        exact .used rfl rfl
      · cases h
  · cases h
    exact .unused

private theorem validation_of_place {c : Config} {key : Option String} {default : Option Value}
    {e : Error} (h : place c key default = .error e) : ∃ cause, e = .validation cause := by
  unfold place at h
  split at h
  · split at h
    · cases h
    · split at h
      · cases h
      · next cause _ => exact ⟨cause, (Except.error.inj h).symm⟩
  · cases h

/-- The events of a pass are a stream. -/
theorem stream_run (reports : List Report) (key : Option String) (default : Option Value) :
    Stream reports key default (run reports key default).result
      (run reports key default).events := by
  -- a merge tells of all reports in front of the first malformed one, so of all if there is none
  by_cases hm : ∃ r ∈ reports, r.Malformed
  · obtain ⟨before, r, after, hr, hb, hm⟩ := exists_first hm
    have hquiet : ∀ b ∈ before, b.malformed? = none := fun b hmem ↦
      b.malformed?_eq_none_iff.mpr (hb b hmem)
    obtain ⟨cause, hcause⟩ := Option.isSome_iff_exists.mp (r.malformed?_isSome_iff.mpr hm)
    obtain ⟨hl, he⟩ := merge_first hquiet hcause after {}
    obtain ⟨-, told, -, -, htold, ht⟩ := merge_told Layers.sound_empty (fun _ h ↦ h) hquiet
    rw [← hr] at hl he
    rw [run_of_error hl, he, htold]
    exact .stopped hr hb hm ht
  · have hquiet : ∀ r ∈ reports, r.malformed? = none := fun r hr ↦
      r.malformed?_eq_none_iff.mpr fun h ↦ hm ⟨r, hr, h⟩
    obtain ⟨l, told, hl, hsound, htold, ht⟩ := merge_told Layers.sound_empty (fun _ h ↦ h) hquiet
    rw [run_of_ok hl, htold, conclude]
    cases hp : place (synthesize l.settle.1).1 key default with
    | error e =>
      obtain ⟨cause, rfl⟩ := validation_of_place hp
      exact .rejected ht hsound.settling
    | ok placed =>
      have he : told.flatten ++ (l.settle.2 ++ (synthesize l.settle.1).2 ++ placed.2 ++
          [.finalized placed.1]) = told.flatten ++ (l.settle.2 ++ (synthesize l.settle.1).2) ++
            placed.2 ++ [.finalized placed.1] := by
        simp only [List.append_assoc]
      dsimp only
      rw [he]
      exact .completed ht hsound.settling (placed_place hp)

end Pass

end LayeredConfig
