import LayeredConfig.Proofs.Overwriting
import LayeredConfig.Proofs.Places
import LayeredConfig.Proofs.Settled

/-!
# What is found under a key

What the answers hold at a place can be merged by itself, or merged with all else that they have. An
answer that replaces more than the place, or cuts off the way to it, takes away what earlier ones
hold there. The two are the same exactly if nothing is lost by this: if later overlays overwrite all
of it.
-/

namespace LayeredConfig

open Keyed (Sorted get?)

namespace Supply

variable {s : Supply} {a : Answer}

/-! ### Own records -/

/-- The own records of all connections. -/
def records (s : Supply) : Keyed Table :=
  s.overlays.foldl (fun m a ↦ a.config.connections.foldl Layers.mergeRecord m)
    (s.files.foldl (fun m a ↦ Keyed.overlay m a.config.connections) [])

/-- The records that one more file leaves. -/
theorem records_addFile (h : s.overlays = []) (a : Answer) :
    (s.addFile a).records = Keyed.overlay s.records a.config.connections := by
  simp only [records, addFile, h, List.foldl_nil, List.foldl_append, List.foldl_cons]

/-- The records that one more overlay leaves. -/
theorem records_addOverlay (s : Supply) (a : Answer) :
    (s.addOverlay a).records = a.config.connections.foldl Layers.mergeRecord s.records := by
  simp only [records, addOverlay, List.foldl_append, List.foldl_cons, List.foldl_nil]

/-- Own records are sorted by name. -/
theorem sorted_records (s : Supply) : Sorted s.records := by
  induction s using induction with
  | empty => exact Keyed.sorted_nil
  | file s a h ih => rw [records_addFile h]; exact ih.overlay _
  | overlay s a ih =>
    rw [records_addOverlay]
    exact ih.merge (fun o fields ↦ Table.deepMerge (o.getD []) fields) a.config.connections

/-- Own records are those of the connections that some answer names. -/
theorem get?_records (h : s.Ordered) (name : String) :
    get? name s.records = if s.names name then some (s.record name) else none := by
  induction s using induction with
  | empty => rfl
  | file s a hs ih =>
    obtain ⟨ho, ha⟩ := h.of_snoc (answers_addFile hs a)
    rw [records_addFile hs, Keyed.get?_overlay _ ha.sorted_connections, ih ho,
      names_snoc (answers_addFile hs a), record_addFile hs, Answer.record?]
    cases get? name a.config.connections <;> simp
  | overlay s a ih =>
    obtain ⟨ho, ha⟩ := h.of_snoc (answers_addOverlay s a)
    rw [records_addOverlay, Layers.get?_mergeRecords _ ha, ih ho,
      names_snoc (answers_addOverlay s a), record_addOverlay]
    cases a.record? name with
    | none => simp
    | some fields =>
      cases hn : s.names name with
      | true => simp
      | false => simp [record_of_not_names hn]

/-! ### Own values -/

/-- What the answers hold at a place, files replacing and overlays merging it. The empty key is not
found once it has moved to the default connection. -/
def held (s : Supply) : Place → Option Value
  | .connections => if s.connected then some (.table (Table.ofRecords s.records)) else none
  | .connection name => s.stack (·.recordValue? name)
  | .field name key rest =>
    s.stack fun a ↦ (a.recordValue? name).bind (·.descend (key :: rest))
  | .root key rest =>
    (s.stack fun a ↦ (a.root? key).bind (·.descend rest)).filter fun v ↦
      !(key.isEmpty && rest.isEmpty) || v.isTable

/-- What the answers have at a place once they are merged: in the own records, and at the merged
root. -/
def own? (s : Supply) : Place → Option Value
  | .field name key rest => (get? key (s.record name)).bind (·.descend rest)
  | .root key rest =>
    ((get? key s.root).bind (·.descend rest)).filter fun v ↦
      !(key.isEmpty && rest.isEmpty) || v.isTable
  | p => s.held p

/-- What the answers hold of a connection is its own record. -/
theorem held_connection (h : s.Ordered) (name : String) :
    s.held (.connection name) = (get? name s.records).map .table := by
  rw [held, stack_record h, get?_records h]
  split <;> rfl

/-! ### What is hidden -/

/-- What an answer has at the end of a path, from where it has anything. -/
def ending (u : Answer → Option Value) (path : List String) (a : Answer) : Option Value :=
  (u a).bind (·.descend path)

/-- The last answer leaves nothing at the end of a path. -/
inductive Clears (s : Supply) (u : Answer → Option Value) (path : List String) : Prop where
  /-- The last file that has anything replaces all, and has nothing there. -/
  | file {v : Value} (last : s.overlays = []) (has : s.files.reverse.findSome? u = some v)
      (lacks : v.descend path = none)
  /-- An overlay has something else than a table on the way. -/
  | overlay {before : List Answer} {a : Answer} {v : Value} (last : s.overlays = before ++ [a])
      (has : u a = some v) (cuts : v.cuts path = true)

/-- Something at the end of a path is lost: an answer clears the path, and no later overlay
overwrites what was there. -/
def Hides (s : Supply) (u : Answer → Option Value) (path : List String) : Prop :=
  ∃ before after, s.overlays = before ++ after ∧ Clears ⟨s.files, before⟩ u path ∧
    ∃ below, (stack ⟨s.files, before⟩ (ending u path)).bind (·.descend below) ≠ none ∧
      ∀ a ∈ after, ∀ v, ending u path a = some v → ¬ v.Overwrites below

/-- Something that an answer holds at a place is hidden by a later one. -/
def Hidden (s : Supply) : Place → Prop
  | .field name key rest => s.Hides (·.recordValue? name) (key :: rest)
  | .root key rest => s.Hides (·.root? key) rest
  | .connections | .connection _ => False

variable {u : Answer → Option Value} {path : List String}

private theorem ordered_ending (hu : ∀ a ∈ s.answers, ∀ v, u a = some v → v.Ordered)
    (path : List String) : ∀ a ∈ s.answers, ∀ x, ending u path a = some x → x.Ordered := by
  intro a ha x hx
  obtain ⟨v, hv, hx⟩ := Option.bind_eq_some_iff.mp hx
  exact (hu a ha v hv).descend hx

private theorem findSome?_ending {files : List Answer} {v x : Value}
    (h : files.findSome? u = some v) (hx : v.descend path = some x) :
    files.findSome? (ending u path) = some x := by
  obtain ⟨before, a, after, rfl, ha, hn⟩ := List.findSome?_eq_some_iff.mp h
  refine List.findSome?_eq_some_iff.mpr ⟨before, a, after, rfl, ?_, fun b hb ↦ ?_⟩
  · rw [ending, ha, Option.bind_some, hx]
  · rw [ending, hn b hb, Option.bind_none]

private theorem stack_append (files before after : List Answer) (u : Answer → Option Value) :
    stack ⟨files, before ++ after⟩ u =
      Table.mergeAll (stack ⟨files, before⟩ u) (after.filterMap u) := by
  induction after using List.reverseRecOn with
  | nil => rw [List.append_nil]; rfl
  | append_singleton after a ih =>
    have hs := stack_addOverlay ⟨files, before ++ after⟩ a u
    rw [addOverlay, List.append_assoc] at hs
    rw [hs, ih, List.filterMap_append]
    cases hv : u a with
    | none => rw [List.filterMap_cons_none hv, List.filterMap_nil, List.append_nil]
    | some v => rw [List.filterMap_cons_some hv, List.filterMap_nil, Table.mergeAll_concat]

/-- Since an answer cleared a path, later overlays have made something stand there, or nothing. -/
def Remains (s : Supply) (u : Answer → Option Value) (path : List String) (o : Option Value) :
    Prop :=
  ∃ before after, s.overlays = before ++ after ∧ Clears ⟨s.files, before⟩ u path ∧
    o = Table.mergeAll none (after.filterMap (ending u path))

private theorem Remains.addOverlay_none {o : Option Value} (h : s.Remains u path o)
    (ha : ending u path a = none) : (s.addOverlay a).Remains u path o := by
  obtain ⟨before, after, hs, hc, rfl⟩ := h
  refine ⟨before, after ++ [a], by rw [addOverlay, hs, List.append_assoc], hc, ?_⟩
  rw [List.filterMap_append, List.filterMap_cons_none ha, List.filterMap_nil, List.append_nil]

private theorem Remains.addOverlay_some {o : Option Value} {x : Value} (h : s.Remains u path o)
    (ha : ending u path a = some x) :
    (s.addOverlay a).Remains u path (some (Table.merged o x)) := by
  obtain ⟨before, after, hs, hc, rfl⟩ := h
  refine ⟨before, after ++ [a], by rw [addOverlay, hs, List.append_assoc], hc, ?_⟩
  rw [List.filterMap_append, List.filterMap_cons_some ha, List.filterMap_nil,
    Table.mergeAll_concat]

private theorem stack_bind_of_files (h : s.overlays = []) (u : Answer → Option Value)
    (path : List String) :
    (s.stack u).bind (·.descend path) = s.stack (ending u path) ∨
      s.Remains u path ((s.stack u).bind (·.descend path)) := by
  simp only [stack, h, List.foldl_nil]
  cases hf : s.files.reverse.findSome? u with
  | none =>
    have hn := List.findSome?_eq_none_iff.mp hf
    left
    rw [Option.bind_none, eq_comm, List.findSome?_eq_none_iff]
    intro a ha
    rw [ending, hn a ha, Option.bind_none]
  | some v =>
    rw [Option.bind_some]
    cases hx : v.descend path with
    | some x => exact Or.inl (findSome?_ending hf hx).symm
    | none => exact Or.inr ⟨[], [], h, .file rfl hf hx, rfl⟩

private theorem stack_bind_cases (hu : ∀ a ∈ s.answers, ∀ v, u a = some v → v.Ordered)
    (path : List String) :
    (s.stack u).bind (·.descend path) = s.stack (ending u path) ∨
      s.Remains u path ((s.stack u).bind (·.descend path)) := by
  induction s using induction with
  | empty => exact stack_bind_of_files rfl u path
  | file s a h _ => exact stack_bind_of_files (s := s.addFile a) h u path
  | overlay s a ih =>
    have hs := answers_addOverlay s a
    have ih := ih fun b hb ↦ hu b (hs ▸ List.mem_append_left _ hb)
    rw [stack_addOverlay, stack_addOverlay]
    cases hv : u a with
    | none =>
      have hd : ending u path a = none := by rw [ending, hv, Option.bind_none]
      rw [hd]
      exact ih.imp id (·.addOverlay_none hd)
    | some v =>
      have hd : ending u path a = v.descend path := by rw [ending, hv, Option.bind_some]
      dsimp only
      rw [hd, Option.bind_some, Table.descend_merged _ (hu a (hs ▸ List.mem_concat_self) v hv)]
      cases hx : v.descend path with
      | some x => exact ih.imp (fun he ↦ by rw [he]) (·.addOverlay_some (hd.trans hx))
      | none =>
        cases hc : v.cuts path with
        | true =>
          right
          exact ⟨s.overlays ++ [a], [], (List.append_nil _).symm, .overlay rfl hv hc, rfl⟩
        | false => exact ih.imp id (·.addOverlay_none (hd.trans hx))

private theorem Clears.stack_bind (h : s.Clears u path)
    (hu : ∀ a ∈ s.answers, ∀ v, u a = some v → v.Ordered) :
    (s.stack u).bind (·.descend path) = none := by
  obtain ⟨files, overlays⟩ := s
  cases h with
  | file last has lacks =>
    obtain rfl : overlays = [] := last
    rw [stack, List.foldl_nil, has, Option.bind_some, lacks]
  | @overlay before a v last has cuts =>
    obtain rfl : overlays = before ++ [a] := last
    have ho : v.Ordered := hu a (List.mem_append_right _ List.mem_concat_self) v has
    have hs := stack_addOverlay ⟨files, before⟩ a u
    rw [has] at hs
    change (stack (addOverlay ⟨files, before⟩ a) u).bind _ = none
    rw [hs, Option.bind_some, Table.descend_merged _ ho, Value.descend_of_cuts cuts]
    exact if_pos cuts

private theorem ordered_filterMap {files before after : List Answer}
    (hu : ∀ a ∈ answers ⟨files, before ++ after⟩, ∀ v, u a = some v → v.Ordered) :
    ∀ v ∈ after.filterMap u, v.Ordered := by
  intro v hv
  obtain ⟨a, ha, hv⟩ := List.mem_filterMap.mp hv
  exact hu a (List.mem_append_right _ (List.mem_append_right before ha)) v hv

private theorem ordered_before {files before after : List Answer}
    (hu : ∀ a ∈ answers ⟨files, before ++ after⟩, ∀ v, u a = some v → v.Ordered) :
    ∀ a ∈ answers ⟨files, before⟩, ∀ v, u a = some v → v.Ordered := by
  intro a ha
  apply hu a
  rw [answers, ← List.append_assoc]
  exact List.mem_append_left _ ha

private theorem Hides.stack_bind_ne (h : s.Hides u path)
    (hu : ∀ a ∈ s.answers, ∀ v, u a = some v → v.Ordered) :
    (s.stack u).bind (·.descend path) ≠ s.stack (ending u path) := by
  obtain ⟨files, overlays⟩ := s
  obtain ⟨before, after, hs, hc, below, hfound, hkept⟩ := h
  obtain rfl : overlays = before ++ after := hs
  -- the answers still hold what stood there, since no value there is overwritten
  have hheld : (stack ⟨files, before ++ after⟩ (ending u path)).bind (·.descend below) ≠ none := by
    rw [stack_append, Table.descend_mergeAll (ordered_filterMap (ordered_ending hu path))]
    · exact hfound
    · intro v hv
      obtain ⟨a, ha, hv⟩ := List.mem_filterMap.mp hv
      exact hkept a ha v hv
  -- and the merged value has nothing there, since no later overlay has
  have hlost : ((stack ⟨files, before ++ after⟩ u).bind (·.descend path)).bind
      (·.descend below) = none := by
    have hpath : ∀ o : Option Value, (o.bind (·.descend path)).bind (·.descend below) =
        o.bind (·.descend (path ++ below)) := by
      intro o
      simp only [Option.bind_assoc, Value.descend_append]
    rw [hpath, stack_append]
    apply Table.descend_mergeAll_eq_none (ordered_filterMap hu)
    · rw [← hpath, hc.stack_bind (ordered_before hu), Option.bind_none]
    · intro v hv
      obtain ⟨a, ha, hv⟩ := List.mem_filterMap.mp hv
      rw [Value.descend_append, Option.bind_eq_none_iff]
      intro x hx
      have hx : ending u path a = some x := by rw [ending, hv, Option.bind_some, hx]
      exact not_not.mp (not_or.mp (hkept a ha x hx)).1
  intro he
  rw [he] at hlost
  exact hheld hlost

/-- Following a path and merging commute exactly if nothing at its end is hidden. -/
theorem stack_bind_iff (hu : ∀ a ∈ s.answers, ∀ v, u a = some v → v.Ordered)
    (path : List String) :
    (s.stack u).bind (·.descend path) = s.stack (ending u path) ↔ ¬ s.Hides u path := by
  refine ⟨fun he h ↦ h.stack_bind_ne hu he, fun hn ↦ ?_⟩
  obtain ⟨files, overlays⟩ := s
  obtain he | ⟨before, after, hs, hc, he⟩ := stack_bind_cases hu path
  · exact he
  · obtain rfl : overlays = before ++ after := hs
    have hending := ordered_ending hu path
    have hbefore : ∀ x, stack ⟨files, before⟩ (ending u path) = some x → x.Ordered :=
      fun x hx ↦ ordered_stack (ordered_before hending) hx
    rw [he, stack_append, eq_comm, Table.mergeAll_eq_iff hbefore (ordered_filterMap hending)]
    intro below hfound
    by_contra hkept
    refine hn ⟨before, after, rfl, hc, below, hfound, fun a ha v hv ho ↦ hkept ?_⟩
    exact ⟨v, List.mem_filterMap.mpr ⟨a, ha, hv⟩, ho⟩

/-- Something is hidden only if some answer has a value that the path leads nowhere from. -/
theorem Hides.exists_answer (h : s.Hides u path) :
    ∃ a ∈ s.answers, ∃ v, u a = some v ∧ v.descend path = none := by
  obtain ⟨before, after, hs, hc, -⟩ := h
  cases hc with
  | @file v _ has lacks =>
    obtain ⟨a, ha, hv⟩ := List.exists_of_findSome?_eq_some has
    exact ⟨a, List.mem_append_left _ (List.mem_reverse.mp ha), v, hv, lacks⟩
  | @overlay init a v last has cuts =>
    obtain rfl : before = init ++ [a] := last
    refine ⟨a, ?_, v, has, Value.descend_of_cuts cuts⟩
    rw [answers, hs]
    simp

/-- At the end of the empty path nothing is hidden. -/
theorem not_hides_nil (s : Supply) (u : Answer → Option Value) : ¬ s.Hides u [] := by
  intro h
  obtain ⟨a, -, v, -, hd⟩ := h.exists_answer
  rw [Value.descend_nil] at hd
  cases hd

/-- What the answers hold at a place is what they are merged to there, exactly if nothing of it is
hidden. -/
theorem own?_eq_held_iff (h : s.Ordered) {p : Place} : s.own? p = s.held p ↔ ¬ s.Hidden p := by
  cases p with
  | connections => exact iff_of_true rfl not_false
  | connection name => exact iff_of_true rfl not_false
  | field name key rest =>
    have hown : s.own? (.field name key rest) =
        (s.stack (·.recordValue? name)).bind (·.descend (key :: rest)) := by
      rw [own?, stack_record h]
      cases hn : s.names name with
      | true => exact (Value.descend_table _ _ _).symm
      | false =>
        rw [record_of_not_names hn]
        rfl
    rw [hown]
    exact stack_bind_iff (ordered_recordValue h name) (key :: rest)
  | root key rest =>
    have hroot := stack_bind_iff (u := (·.root? key)) (fun a ha v ↦ (h a ha).root?) rest
    rw [own?, held, get?_root h, Hidden, ← hroot]
    cases rest with
    | nil => rw [hroot.mpr (s.not_hides_nil _)]; exact iff_of_true rfl rfl
    | cons p rest =>
      have hall : ∀ o : Option Value,
          (o.filter fun v ↦ !(key.isEmpty && (p :: rest).isEmpty) || v.isTable) = o := by
        intro o
        rw [List.isEmpty_cons, Bool.and_false]
        cases o <;> rfl
      rw [hall, hall]
      exact Iff.rfl

end Supply

end LayeredConfig
