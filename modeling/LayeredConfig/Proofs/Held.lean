import LayeredConfig.Proofs.Layers

/-!
# What the layers hold

The invariant of a merge: the root is the merged root, a field of a connection is its own value or
else the latest general value that an overlay offered to it, and the layers know which fields are of
the second kind. One step of the merge keeps it, for a file and for an overlay.
-/

namespace LayeredConfig

open Keyed (Sorted get?)

/-- The layers that a merge of the answers leads to. -/
def Supply.layers (s : Supply) : Layers :=
  s.overlays.foldl (fun l a ↦ (l.addOverlay a.report a.config).1)
    (s.files.foldl (fun l a ↦ l.addFile a.report a.config) {})

private theorem Supply.layers_addFile {s : Supply} (h : s.overlays = []) (a : Answer) :
    (s.addFile a).layers = s.layers.addFile a.report a.config := by
  simp only [layers, addFile, h, List.foldl_nil, List.foldl_append, List.foldl_cons]

private theorem Supply.layers_addOverlay (s : Supply) (a : Answer) :
    (s.addOverlay a).layers = (s.layers.addOverlay a.report a.config).1 := by
  simp only [layers, addOverlay, List.foldl_append, List.foldl_cons, List.foldl_nil]

/-- The latest general parameter under a key, as a candidate of the answer that had it. -/
def Supply.latest? (s : Supply) (key : String) : Option Candidate :=
  s.last? fun a ↦ (a.general? key).map (a.report.candidate key)

namespace Layers

/-! ### An overlay in parts -/

/-- The records once those of an overlay are merged in, before general parameters are. -/
def joined (l : Layers) (c : Config) : Keyed Table :=
  c.connections.foldl mergeRecord l.config.connections

/-- The fields that still hold a general value then. -/
def refillable (l : Layers) (c : Config) : List (String × String) :=
  l.filled.filter fun field ↦ !hasField c.connections field

/-- The general parameters of an overlay that go into a record. -/
def taken (l : Layers) (r : Report) (c : Config) (e : String × Table) : List Candidate :=
  applicable (l.refillable c) e.1 e.2 (candidates r c.root)

/-- Adding an overlay, its parts by name. -/
theorem addOverlay_eq (l : Layers) (r : Report) (c : Config) :
    l.addOverlay r c =
      ({ config :=
           { root := Table.deepMerge
               (Table.deepMerge l.config.root (c.root.filter fun e ↦ !isGeneral e))
               (c.root.filter isGeneral)
             connections := (l.joined c).map fun e ↦ (e.1, fill e.2 (l.taken r c e)) }
         general := note l.general (candidates r c.root)
         flatView := if (l.joined c).isEmpty then l.flatView
           else l.flatView ++ Keyed.keys (c.root.filter isGeneral)
         filled := l.refillable c ++
           (l.joined c).flatMap fun e ↦ (l.taken r c e).map fun c ↦ (e.1, c.key) },
        (l.joined c).flatMap fun e ↦ (l.taken r c e).map (broadcastEvent e.1)) := by
  rw [addOverlay, Table.splitGeneral_eq]
  simp only [candidates_general, List.flatMap_map]
  rfl

/-! ### The invariant -/

/-- The layers agree with what the answers supply. -/
structure Holds (l : Layers) (s : Supply) : Prop where
  root : l.config.root = s.root
  sorted : Sorted l.config.connections
  named : ∀ name, Keyed.contains name l.config.connections = s.names name
  sortedRecord : ∀ {name record}, get? name l.config.connections = some record → Sorted record
  field : ∀ name key, get? key ((get? name l.config.connections).getD []) =
    (get? key (s.record name)).or (s.offer? name key)
  filled : ∀ name key, (name, key) ∈ l.filled ↔
    get? key (s.record name) = none ∧ (s.offer? name key).isSome = true
  sortedGeneral : Sorted l.general
  general : ∀ key, get? key l.general = s.latest? key
  flatView : ∀ key, key ∈ l.flatView ↔ s.Shown key

variable {l : Layers} {s : Supply} {a : Answer}

private theorem holds_empty : Holds {} {} where
  root := rfl
  sorted := Keyed.sorted_nil
  named _ := rfl
  sortedRecord h := by cases h
  field _ _ := rfl
  filled _ _ := by
    constructor
    · intro h
      cases h
    · rintro ⟨-, h⟩
      cases h
  sortedGeneral := Keyed.sorted_nil
  general _ := rfl
  flatView key := by
    constructor
    · intro h
      cases h
    · intro h
      exact absurd h (Supply.not_shown_of_files rfl key)

/-- A file's table keeps the layers in agreement as long as there are no overlays. -/
theorem Holds.addFile (h : l.Holds s) (hs : s.overlays = []) (ha : a.Ordered) :
    (l.addFile a.report a.config).Holds (s.addFile a) where
  root := by
    rw [Supply.root_addFile hs, ← h.root]
    rfl
  sorted := h.sorted.overlay _
  named name := by
    rw [Supply.names_snoc (Supply.answers_addFile hs a), ← h.named, Keyed.contains, Keyed.contains]
    change (get? name (Keyed.overlay l.config.connections a.config.connections)).isSome = _
    rw [Keyed.get?_overlay _ ha.sorted_connections, Answer.record?]
    cases get? name a.config.connections with
    | none => rw [Option.none_or, Option.isSome_none, Bool.or_false]
    | some record => rw [Option.some_or, Option.isSome_some, Bool.or_true]
  sortedRecord {name record} hr := by
    change get? name (Keyed.overlay l.config.connections a.config.connections) = _ at hr
    rw [Keyed.get?_overlay _ ha.sorted_connections, Option.or_eq_some_iff] at hr
    rcases hr with hr | ⟨-, hr⟩
    · exact (ha.record? hr).sorted
    · exact h.sortedRecord hr
  field name key := by
    change get? key ((get? name (Keyed.overlay l.config.connections a.config.connections)).getD [])
      = _
    have hf := h.field name key
    rw [Supply.offer?_of_files hs, Option.or_none] at hf
    rw [Keyed.get?_overlay _ ha.sorted_connections, Supply.offer?_of_files (by exact hs),
      Option.or_none, Supply.record_addFile hs, Answer.record?]
    cases get? name a.config.connections with
    | none => exact hf
    | some record => rfl
  filled name key := by
    change (name, key) ∈ l.filled ↔ _
    rw [h.filled, Supply.offer?_of_files hs, Supply.offer?_of_files (by exact hs)]
    simp only [Option.isSome_none, Bool.false_eq_true, and_false]
  sortedGeneral := h.sortedGeneral.overlay _
  general key := by
    change get? key (note l.general (candidates a.report a.config.root)) = _
    rw [note, Keyed.get?_overlay _ (sorted_candidates ha), get?_candidates ha, h.general,
      Supply.latest?, Supply.latest?, Supply.last?_snoc (Supply.answers_addFile hs a)]
  flatView key := by
    change key ∈ l.flatView ↔ _
    rw [h.flatView]
    constructor
    · intro hk
      exact absurd hk (Supply.not_shown_of_files hs key)
    · intro hk
      exact absurd hk (Supply.not_shown_of_files (by exact hs) key)

private theorem get?_deepMerge_offer {own held fields : Table} (hf : Sorted fields) {key : String}
    {offer : Option Value} (hh : get? key held = (get? key own).or offer)
    (ho : ∀ v, offer = some v → v.isTable = false) :
    get? key (Table.deepMerge held fields) =
      (get? key (Table.deepMerge own fields)).or offer := by
  rw [Table.get?_deepMerge _ hf, Table.get?_deepMerge _ hf, hh]
  cases get? key fields with
  | none => rfl
  | some v =>
    cases get? key own with
    | some w => rfl
    | none =>
      dsimp only
      rw [Option.none_or, Table.merged_none, Option.some_or]
      cases hw : offer with
      | none => rw [Table.merged_none]
      | some w => rw [Table.merged_over (ho w hw)]

/-- Merging records in keeps the connections sorted. -/
theorem Holds.sorted_joined (h : l.Holds s) (a : Answer) : Sorted (l.joined a.config) :=
  h.sorted.merge (fun o fields ↦ Table.deepMerge (o.getD []) fields) a.config.connections

private theorem Holds.sortedRecord_joined (h : l.Holds s) (ha : a.Ordered) {name : String}
    {record : Table} (hr : get? name (l.joined a.config) = some record) : Sorted record := by
  rw [joined, get?_mergeRecords _ ha] at hr
  cases hn : a.record? name with
  | none =>
    rw [hn] at hr
    exact h.sortedRecord hr
  | some fields =>
    rw [hn] at hr
    obtain rfl := Option.some.inj hr
    apply Table.sorted_deepMerge
    cases ho : get? name l.config.connections with
    | none => exact Keyed.sorted_nil
    | some old => exact h.sortedRecord ho

/-- Which connections there are once an overlay's are merged in. -/
theorem Holds.named_joined (h : l.Holds s) (ha : a.Ordered) (name : String) :
    Keyed.contains name (l.joined a.config) = (s.addOverlay a).names name := by
  rw [Supply.names_snoc (Supply.answers_addOverlay s a), ← h.named, Keyed.contains,
    Keyed.contains, joined, get?_mergeRecords _ ha]
  cases a.record? name with
  | none => rw [Option.isSome_none, Bool.or_false]
  | some fields => rw [Option.isSome_some, Option.isSome_some, Bool.or_true]

/-- The fields once an overlay's are merged in. -/
theorem Holds.field_joined (h : l.Holds s) (ha : a.Ordered) (name key : String) :
    get? key ((get? name (l.joined a.config)).getD []) =
      (get? key ((s.addOverlay a).record name)).or (s.offer? name key) := by
  have hf := h.field name key
  rw [joined, get?_mergeRecords _ ha, Supply.record_addOverlay]
  cases hr : a.record? name with
  | none => exact hf
  | some fields =>
    apply get?_deepMerge_offer (ha.record? hr).sorted hf
    intro v hv
    exact (isGeneral_iff.mp (Supply.offer?_eq_some hv).1).2

/-- Fields of its own that an overlay has for a connection. -/
theorem hasField_eq (a : Answer) (name key : String) :
    hasField a.config.connections (name, key) =
      ((a.record? name).any fun fields ↦ Keyed.contains key fields) := by
  rw [hasField, Answer.record?]
  cases get? name a.config.connections <;> rfl

/-- Whether an own record has no field, once an overlay's are merged in. -/
theorem get?_record_addOverlay_eq_none (ha : a.Ordered) (s : Supply) (name key : String) :
    get? key ((s.addOverlay a).record name) = none ↔
      get? key (s.record name) = none ∧ hasField a.config.connections (name, key) = false := by
  rw [Supply.record_addOverlay, hasField_eq]
  cases hr : a.record? name with
  | none => simp only [Option.any_none, and_true]
  | some fields =>
    dsimp only
    rw [Table.get?_deepMerge _ (ha.record? hr).sorted, Option.any_some, Keyed.contains]
    cases get? key fields with
    | none => simp only [Option.isSome_none, and_true]
    | some v => simp only [Option.isSome_some, reduceCtorEq, Bool.true_eq_false, and_false]

/-- The fields that hold a general value once an overlay's own are merged in. -/
theorem Holds.mem_refillable (h : l.Holds s) (ha : a.Ordered) (name key : String) :
    (name, key) ∈ l.refillable a.config ↔
      get? key ((s.addOverlay a).record name) = none ∧ (s.offer? name key).isSome = true := by
  rw [refillable, List.mem_filter, h.filled, get?_record_addOverlay_eq_none ha, Bool.not_eq_true']
  constructor
  · rintro ⟨⟨hn, ho⟩, hf⟩
    exact ⟨⟨hn, hf⟩, ho⟩
  · rintro ⟨⟨hn, hf⟩, ho⟩
    exact ⟨⟨hn, ho⟩, hf⟩

/-- There is room for a general parameter exactly where the own record has no field. -/
theorem Holds.room (h : l.Holds s) (ha : a.Ordered) {name : String} {record : Table}
    (hr : get? name (l.joined a.config) = some record) (key : String) :
    (Keyed.contains key record = false ∨ (name, key) ∈ l.refillable a.config) ↔
      get? key ((s.addOverlay a).record name) = none := by
  have hf := h.field_joined ha name key
  rw [hr, Option.getD_some] at hf
  rw [h.mem_refillable ha, Keyed.contains_eq_false_iff, hf, Option.or_eq_none_iff]
  constructor
  · rintro (⟨hn, -⟩ | ⟨hn, -⟩) <;> exact hn
  · intro hn
    cases ho : s.offer? name key with
    | none => exact Or.inl ⟨hn, rfl⟩
    | some v => exact Or.inr ⟨hn, rfl⟩

/-- A general parameter of an overlay goes into a connection that is there and has no such field of
its own. -/
theorem Holds.mem_taken (h : l.Holds s) (ha : a.Ordered) {name : String} {record : Table}
    (hr : get? name (l.joined a.config) = some record) {c : Candidate} :
    c ∈ l.taken a.report a.config (name, record) ↔
      ∃ key v, a.general? key = some v ∧ c = a.report.candidate key v ∧
        get? key ((s.addOverlay a).record name) = none := by
  rw [taken, mem_applicable ha]
  simp only [h.room ha hr]

private theorem Holds.get?_fill (h : l.Holds s) (ha : a.Ordered) {name : String} {record : Table}
    (hr : get? name (l.joined a.config) = some record) (key : String) :
    get? key (fill record (l.taken a.report a.config (name, record))) =
      (get? key ((s.addOverlay a).record name)).or ((s.addOverlay a).offer? name key) := by
  have hn : (s.addOverlay a).names name = true := by
    rw [← h.named_joined ha, Keyed.contains, hr, Option.isSome_some]
  have hf := h.field_joined ha name key
  rw [hr, Option.getD_some] at hf
  rw [taken, Layers.get?_fill ha, hf, Supply.offer?_addOverlay, if_pos hn]
  cases hv : get? key ((s.addOverlay a).record name) with
  | none => rw [if_pos ((h.room ha hr key).mpr hv), Option.none_or, Option.none_or]
  | some v =>
    have hroom := mt (h.room ha hr key).mp (hv ▸ Option.some_ne_none v)
    rw [if_neg hroom, Option.some_or, Option.some_or]

private theorem Holds.mem_filled_addOverlay (h : l.Holds s) (ha : a.Ordered) (name key : String) :
    (name, key) ∈ l.refillable a.config ++ (l.joined a.config).flatMap
        (fun e ↦ (l.taken a.report a.config e).map fun c ↦ (e.1, c.key)) ↔
      get? key ((s.addOverlay a).record name) = none ∧
        ((s.addOverlay a).offer? name key).isSome = true := by
  rw [List.mem_append, h.mem_refillable ha, List.mem_flatMap, Supply.offer?_addOverlay]
  constructor
  · rintro (⟨hn, ho⟩ | ⟨⟨name', record⟩, he, hc⟩)
    · obtain ⟨v, ho⟩ := Option.isSome_iff_exists.mp ho
      have hnames := (Supply.offer?_eq_some ho).2
      refine ⟨hn, ?_⟩
      rw [Supply.names_snoc (Supply.answers_addOverlay s a), hnames, Bool.true_or, if_pos rfl,
        ho, Option.isSome_or, Option.isSome_some, Bool.or_true]
    · obtain ⟨c, hct, he'⟩ := List.mem_map.mp hc
      obtain ⟨rfl, rfl⟩ := Prod.mk.inj he'
      have hr := (h.sorted_joined a).mem_iff.mp he
      obtain ⟨key, v, hg, rfl, hn⟩ := (h.mem_taken ha hr).mp hct
      have hg : a.general? (a.report.candidate key v).key = some v := hg
      refine ⟨hn, ?_⟩
      rw [← h.named_joined ha, Keyed.contains, hr, Option.isSome_some, if_pos rfl,
        Option.isSome_or, hg, Option.isSome_some, Bool.true_or]
  · rintro ⟨hn, ho⟩
    split at ho
    · next hnames =>
      rw [Option.isSome_or, Bool.or_eq_true] at ho
      rcases ho with hg | ho
      · obtain ⟨v, hg⟩ := Option.isSome_iff_exists.mp hg
        rw [← h.named_joined ha, Keyed.contains] at hnames
        obtain ⟨record, hr⟩ := Option.isSome_iff_exists.mp hnames
        refine Or.inr ⟨(name, record), Keyed.mem_of_get? hr, List.mem_map.mpr ?_⟩
        exact ⟨_, (h.mem_taken ha hr).mpr ⟨key, v, hg, rfl, hn⟩, rfl⟩
      · exact Or.inl ⟨hn, ho⟩
    · cases ho

private theorem mem_keys_general (ha : a.Ordered) (key : String) :
    key ∈ Keyed.keys (a.config.root.filter isGeneral) ↔ (a.general? key).isSome = true := by
  rw [Keyed.keys, List.mem_map, Answer.general?, Answer.root?,
    ← ha.sorted_root.get?_filter isGeneral key]
  constructor
  · rintro ⟨e, he, rfl⟩
    exact Keyed.isSome_get?_of_mem he
  · intro hk
    obtain ⟨v, hv⟩ := Option.isSome_iff_exists.mp hk
    exact ⟨(key, v), Keyed.mem_of_get? hv, rfl⟩

/-- An overlay's table keeps the layers in agreement. -/
theorem Holds.addOverlay (h : l.Holds s) (ha : a.Ordered) :
    (l.addOverlay a.report a.config).1.Holds (s.addOverlay a) := by
  rw [addOverlay_eq]
  have get?_connections : ∀ name, get? name ((l.joined a.config).map fun e ↦
      (e.1, fill e.2 (l.taken a.report a.config e))) =
        (get? name (l.joined a.config)).map fun record ↦
          fill record (l.taken a.report a.config (name, record)) := fun name ↦
    Keyed.get?_map name (fun name record ↦ fill record (l.taken a.report a.config (name, record))) _
  refine
    { root := ?_, sorted := ?_, named := ?_, sortedRecord := ?_, field := ?_, filled := ?_,
      sortedGeneral := h.sortedGeneral.overlay _, general := ?_, flatView := ?_ }
  · rw [Supply.root_addOverlay, h.root]
    exact Table.deepMerge_split s.sorted_root ha.sorted_root
  · exact (h.sorted_joined a).map fun name record ↦
      fill record (l.taken a.report a.config (name, record))
  · intro name
    rw [← h.named_joined ha, Keyed.contains, Keyed.contains, get?_connections, Option.isSome_map]
  · intro name record hr
    dsimp only at hr
    rw [get?_connections, Option.map_eq_some_iff] at hr
    obtain ⟨old, hr, rfl⟩ := hr
    exact (h.sortedRecord_joined ha hr).overlay _
  · intro name key
    dsimp only
    rw [get?_connections]
    cases hr : get? name (l.joined a.config) with
    | some record => exact h.get?_fill ha hr key
    | none =>
      have hn : (s.addOverlay a).names name = false := by
        rw [← h.named_joined ha, Keyed.contains, hr, Option.isSome_none]
      rw [Supply.record_of_not_names hn, Supply.offer?_addOverlay, hn]
      rfl
  · intro name key
    exact h.mem_filled_addOverlay ha name key
  · intro key
    dsimp only
    rw [note, Keyed.get?_overlay _ (sorted_candidates ha), get?_candidates ha, h.general,
      Supply.latest?, Supply.latest?, Supply.last?_snoc (Supply.answers_addOverlay s a)]
  · intro key
    dsimp only
    rw [Supply.isEmpty_eq (h.named_joined ha), Supply.shown_addOverlay, ← h.flatView]
    cases (s.addOverlay a).connected with
    | false => simp
    | true =>
      rw [Bool.not_true, if_neg Bool.false_ne_true, List.mem_append, mem_keys_general ha]
      simp only [and_true]

end Layers

/-- The layers that a merge leads to agree with the answers. -/
theorem Supply.holds_layers {s : Supply} (h : s.Ordered) : s.layers.Holds s := by
  induction s using induction with
  | empty => exact Layers.holds_empty
  | file s a hs ih =>
    obtain ⟨ho, ha⟩ := h.of_snoc (answers_addFile hs a)
    rw [layers_addFile hs]
    exact (ih ho).addFile hs ha
  | overlay s a ih =>
    obtain ⟨ho, ha⟩ := h.of_snoc (answers_addOverlay s a)
    rw [layers_addOverlay]
    exact (ih ho).addOverlay ha

end LayeredConfig
