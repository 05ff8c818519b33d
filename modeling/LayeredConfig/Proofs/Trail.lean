import LayeredConfig.Proofs.Fields
import LayeredConfig.Proofs.Settled
import LayeredConfig.Proofs.Tracking
import Mathlib.Data.List.Nodup

/-!
# The trail of a merge

The candidates that a merge reports, in order: for each answer first its leaves, and then, for an
overlay, the general parameters that became fields of connections. In the end come those that fill
connections when the layers settle.
-/

namespace LayeredConfig

open Keyed (Sorted get?)
open Tracker (matching)

/-- The candidate that an event reports. -/
def Event.candidate? : Event → Option Candidate
  | .discovered c | .broadcast _ c => some c
  | _ => none

/-- The leaves of an answer as candidates. -/
def Answer.discoveries (a : Answer) : List Candidate :=
  (Table.flatten a.data).map fun e ↦ a.report.candidate e.1 e.2

/-- The source of an answer. -/
def Answer.source (a : Answer) : String := a.report.source

namespace Answer

variable {a : Answer}

private theorem find?_discoveries (a : Answer) (key : String) :
    a.discoveries.find? (matching key a.source) = (a.leaf? key).map (a.report.candidate key) := by
  rw [discoveries, leaf?]
  induction Table.flatten a.data with
  | nil => rfl
  | cons e rest ih =>
    obtain ⟨k, v⟩ := e
    have hm : matching key a.source (a.report.candidate k v) = (k == key) := by
      change (k == key && a.report.source == a.report.source) = _
      rw [beq_self_eq_true, Bool.and_true]
    rw [List.map_cons, List.find?_cons, hm, Keyed.get?_cons, ih]
    by_cases hk : k = key
    · rw [if_pos hk, beq_iff_eq.mpr hk, hk]
      rfl
    · rw [if_neg hk, beq_eq_false_iff_ne.mpr hk]

/-- The candidates of an answer's leaves. -/
theorem mem_discoveries {c : Candidate} :
    c ∈ a.discoveries ↔ ∃ key v, a.leaf? key = some v ∧ c = a.report.candidate key v := by
  have hs : Sorted (Table.flatten a.data) := Keyed.sorted_ofList _
  rw [discoveries, List.mem_map]
  constructor
  · rintro ⟨⟨key, v⟩, he, rfl⟩
    exact ⟨key, v, hs.mem_iff.mp he, rfl⟩
  · rintro ⟨key, v, hv, rfl⟩
    exact ⟨(key, v), hs.mem_iff.mpr hv, rfl⟩

end Answer

namespace Layers

/-- The general parameters of an overlay that become fields of connections. -/
def spread (l : Layers) (a : Answer) : List Candidate :=
  (l.addOverlay a.report a.config).2.filterMap Event.candidate?

/-- The candidates that some overlays report. -/
def trail (l : Layers) : List Answer → List Candidate
  | [] => []
  | a :: rest =>
    a.discoveries ++ l.spread a ++ trail (l.addOverlay a.report a.config).1 rest

private theorem trail_append (l : Layers) (overlays : List Answer) (a : Answer) :
    l.trail (overlays ++ [a]) =
      l.trail overlays ++ (a.discoveries ++
        (overlays.foldl (fun l a ↦ (l.addOverlay a.report a.config).1) l).spread a) := by
  induction overlays generalizing l with
  | nil =>
    rw [List.nil_append, trail, trail, trail, List.append_nil, List.nil_append, List.foldl_nil]
  | cons b rest ih =>
    rw [List.cons_append, trail, trail, ih, List.foldl_cons, List.append_assoc _ (trail _ rest)]

/-- A general parameter of an overlay becomes a field of every connection that is there and has no
such field of its own. -/
theorem Holds.mem_spread {l : Layers} {s : Supply} {a : Answer} (h : l.Holds s) (ha : a.Ordered)
    {c : Candidate} :
    c ∈ l.spread a ↔ ∃ name key v, (s.addOverlay a).names name = true ∧
      a.general? key = some v ∧ get? key ((s.addOverlay a).record name) = none ∧
        c = (a.report.candidate key v).rekeyed (connectionKey name key) := by
  have hs : l.spread a = (l.joined a.config).flatMap fun e ↦
      (l.taken a.report a.config e).map fun c ↦ c.rekeyed (connectionKey e.1 c.key) := by
    rw [spread, addOverlay_eq, List.filterMap_flatMap]
    congr 1
    funext e
    rw [List.filterMap_map]
    exact congrFun (List.filterMap_eq_map
      (f := fun c : Candidate ↦ c.rekeyed (connectionKey e.1 c.key))) _
  rw [hs, List.mem_flatMap]
  constructor
  · rintro ⟨⟨name, record⟩, he, hc⟩
    obtain ⟨c', hc', rfl⟩ := List.mem_map.mp hc
    have hr := (h.sorted_joined a).mem_iff.mp he
    obtain ⟨key, v, hg, rfl, hn⟩ := (h.mem_taken ha hr).mp hc'
    refine ⟨name, key, v, ?_, hg, hn, rfl⟩
    rw [← h.named_joined ha, Keyed.contains, hr, Option.isSome_some]
  · rintro ⟨name, key, v, hnames, hg, hn, rfl⟩
    rw [← h.named_joined ha, Keyed.contains] at hnames
    obtain ⟨record, hr⟩ := Option.isSome_iff_exists.mp hnames
    refine ⟨(name, record), Keyed.mem_of_get? hr, List.mem_map.mpr ?_⟩
    exact ⟨_, (h.mem_taken ha hr).mpr ⟨key, v, hg, rfl, hn⟩, rfl⟩

end Layers

namespace Supply

variable {s : Supply} {a : Answer}

/-- The candidates that a merge of the answers reports. -/
def trail (s : Supply) : List Candidate :=
  s.files.flatMap Answer.discoveries ++
    (s.files.foldl (fun l a ↦ l.addFile a.report a.config) {} : Layers).trail s.overlays

/-- The trail of one more file. -/
theorem trail_addFile (h : s.overlays = []) (a : Answer) :
    (s.addFile a).trail = s.trail ++ a.discoveries := by
  simp only [trail, addFile, h, Layers.trail, List.append_nil, List.flatMap_append,
    List.flatMap_singleton]

/-- The trail of one more overlay. -/
theorem trail_addOverlay (s : Supply) (a : Answer) :
    (s.addOverlay a).trail = s.trail ++ (a.discoveries ++ s.layers.spread a) := by
  rw [trail, trail, addOverlay, Layers.trail_append, ← List.append_assoc]
  rfl

/-- The sources of the answers have different names. -/
def Distinct (s : Supply) : Prop := (s.answers.map Answer.source).Nodup

private theorem Distinct.of_snoc {s' : Supply} (hs : s'.answers = s.answers ++ [a])
    (h : s'.Distinct) : s.Distinct ∧ ∀ b ∈ s.answers, b.source ≠ a.source := by
  rw [Distinct, hs, List.map_append, List.nodup_append] at h
  obtain ⟨hn, -, hd⟩ := h
  refine ⟨hn, fun b hb ↦ hd _ (List.mem_map_of_mem hb) _ ?_⟩
  exact List.mem_singleton_self _

/-- Answers of one name are one. -/
theorem Distinct.eq_of_source (h : s.Distinct) {a b : Answer} (ha : a ∈ s.answers)
    (hb : b ∈ s.answers) (he : a.source = b.source) : a = b :=
  List.inj_on_of_nodup_map h ha hb he

/-- What the trail holds: leaves of answers, and general parameters of overlays for fields of
connections that are there. -/
theorem mem_trail (h : s.Ordered) {c : Candidate} (hc : c ∈ s.trail) :
    (∃ a ∈ s.answers, ∃ key v, a.leaf? key = some v ∧ c = a.report.candidate key v) ∨
      ∃ a ∈ s.overlays, ∃ name key v, s.names name = true ∧ a.general? key = some v ∧
        c = (a.report.candidate key v).rekeyed (connectionKey name key) := by
  induction s using induction with
  | empty => cases hc
  | file s a hs ih =>
    obtain ⟨ho, -⟩ := h.of_snoc (answers_addFile hs a)
    rw [trail_addFile hs, List.mem_append, Answer.mem_discoveries] at hc
    rw [answers_addFile hs]
    rcases hc with hc | ⟨key, v, hv, rfl⟩
    · rcases ih ho hc with ⟨b, hb, hc⟩ | ⟨b, hb, name, key, v, hnames, hc⟩
      · exact Or.inl ⟨b, List.mem_append_left _ hb, hc⟩
      · refine Or.inr ⟨b, hb, name, key, v, ?_, hc⟩
        rw [names_snoc (answers_addFile hs a), hnames, Bool.true_or]
    · exact Or.inl ⟨a, List.mem_concat_self, key, v, hv, rfl⟩
  | overlay s a ih =>
    obtain ⟨ho, ha⟩ := h.of_snoc (answers_addOverlay s a)
    rw [trail_addOverlay, List.mem_append, List.mem_append, Answer.mem_discoveries,
      (holds_layers ho).mem_spread ha] at hc
    rw [answers_addOverlay]
    rcases hc with hc | ⟨key, v, hv, rfl⟩ | ⟨name, key, v, hnames, hg, -, rfl⟩
    · rcases ih ho hc with ⟨b, hb, hc⟩ | ⟨b, hb, name, key, v, hnames, hc⟩
      · exact Or.inl ⟨b, List.mem_append_left _ hb, hc⟩
      · refine Or.inr ⟨b, List.mem_append_left _ hb, name, key, v, ?_, hc⟩
        rw [names_snoc (answers_addOverlay s a), hnames, Bool.true_or]
    · exact Or.inl ⟨a, List.mem_concat_self, key, v, hv, rfl⟩
    · refine Or.inr ⟨a, List.mem_concat_self, name, key, v, ?_⟩
      exact ⟨hnames, hg, rfl⟩

private theorem exists_source_of_mem_trail (h : s.Ordered) {c : Candidate} (hc : c ∈ s.trail) :
    ∃ a ∈ s.answers, c.source = a.source := by
  rcases mem_trail h hc with ⟨a, ha, key, v, -, rfl⟩ | ⟨a, ha, name, key, v, -, -, rfl⟩
  · exact ⟨a, ha, rfl⟩
  · exact ⟨a, List.mem_append_right _ ha, rfl⟩

private theorem find?_trail_eq_none (h : s.Ordered) {a : Answer}
    (ha : ∀ b ∈ s.answers, b.source ≠ a.source) (key : String) :
    s.trail.find? (matching key a.source) = none := by
  rw [List.find?_eq_none]
  intro c hc hm
  obtain ⟨b, hb, hcb⟩ := exists_source_of_mem_trail h hc
  exact ha b hb (hcb.symm.trans (Tracker.matching_iff.mp hm).2)

/-- A leaf of an answer is the first candidate that its source has for the key. -/
theorem find?_trail_of_leaf (h : s.Ordered) (hd : s.Distinct) {a : Answer} (ha : a ∈ s.answers)
    {key : String} {v : Value} (hv : a.leaf? key = some v) :
    s.trail.find? (matching key a.source) = some (a.report.candidate key v) := by
  have hfirst : a.discoveries.find? (matching key a.source) =
      some (a.report.candidate key v) := by
    rw [Answer.find?_discoveries, hv, Option.map_some]
  induction s using induction with
  | empty => cases ha
  | file s b hs ih =>
    obtain ⟨ho, -⟩ := h.of_snoc (answers_addFile hs b)
    obtain ⟨hd, hb⟩ := hd.of_snoc (answers_addFile hs b)
    rw [answers_addFile hs, List.mem_append, List.mem_singleton] at ha
    rw [trail_addFile hs, List.find?_append]
    rcases ha with ha | rfl
    · rw [ih ho hd ha, Option.some_or]
    · rw [find?_trail_eq_none ho hb, Option.none_or, hfirst]
  | overlay s b ih =>
    obtain ⟨ho, -⟩ := h.of_snoc (answers_addOverlay s b)
    obtain ⟨hd, hb⟩ := hd.of_snoc (answers_addOverlay s b)
    rw [answers_addOverlay, List.mem_append, List.mem_singleton] at ha
    rw [trail_addOverlay, List.find?_append, List.find?_append]
    rcases ha with ha | rfl
    · rw [ih ho hd ha, Option.some_or]
    · rw [find?_trail_eq_none ho hb, Option.none_or, hfirst, Option.some_or]

/-- What an overlay offers to a connection without such a field of its own is in the trail. -/
theorem exists_mem_trail_of_offer (h : s.Ordered) {name key : String} {v : Value}
    (hn : get? key (s.record name) = none) (ho : s.offer? name key = some v) :
    ∃ a ∈ s.overlays, a.general? key = some v ∧
      (a.report.candidate key v).rekeyed (connectionKey name key) ∈ s.trail := by
  induction s using induction with
  | empty => cases ho
  | file s a hs ih =>
    rw [offer?_of_files (by exact hs)] at ho
    cases ho
  | overlay s a ih =>
    obtain ⟨hs, ha⟩ := h.of_snoc (answers_addOverlay s a)
    rw [offer?_addOverlay] at ho
    split at ho
    · next hnames =>
      rw [trail_addOverlay]
      rcases Option.or_eq_some_iff.mp ho with hg | ⟨-, ho⟩
      · refine ⟨a, List.mem_concat_self, hg, ?_⟩
        apply List.mem_append_right
        apply List.mem_append_right
        exact ((holds_layers hs).mem_spread ha).mpr ⟨name, key, v, hnames, hg, hn, rfl⟩
      · have hn' := ((Layers.get?_record_addOverlay_eq_none ha s name key).mp hn).1
        obtain ⟨b, hb, hg, hc⟩ := ih hs hn' ho
        exact ⟨b, List.mem_append_left _ hb, hg, List.mem_append_left _ hc⟩
    · cases ho

/-! ### Settling -/

/-- The candidates that are reported when the layers settle. -/
def settled (s : Supply) : List Candidate := s.layers.settle.2.filterMap Event.candidate?

/-- Without a connection none are. -/
theorem settled_of_not_connected (h : s.Ordered) (hc : s.connected = false) : s.settled = [] := by
  rw [settled, settle_of_not_connected h hc]
  rfl

/-- The candidates that settle are the latest ones at the root, for connections that have no such
field yet. -/
theorem mem_settled (h : s.Ordered) (hc : s.connected = true) {c : Candidate} :
    c ∈ s.settled ↔ ∃ name key c', s.names name = true ∧ get? key (s.record name) = none ∧
      s.offer? name key = none ∧ get? key s.standing = some c' ∧
        c = c'.rekeyed (connectionKey name c'.key) := by
  have hl := holds_layers h
  have hs : s.settled = s.layers.config.connections.flatMap fun e ↦
      (Table.fillMissing e.2 s.defaults).1.filterMap fun key ↦
        (get? key s.standing).map fun c ↦ c.rekeyed (connectionKey e.1 c.key) := by
    rw [settled, settle_of_connected h hc, List.filterMap_flatMap]
    congr 1
    funext e
    rw [List.filterMap_filterMap]
    congr 1
    funext key
    cases get? key s.standing <;> rfl
  rw [hs, List.mem_flatMap]
  constructor
  · rintro ⟨⟨name, held⟩, he, hm⟩
    obtain ⟨key, hk, hkc⟩ := List.mem_filterMap.mp hm
    obtain ⟨c', hc', rfl⟩ := Option.map_eq_some_iff.mp hkc
    have hr := hl.sorted.mem_iff.mp he
    have hf := hl.field name key
    rw [hr, Option.getD_some, (Table.mem_fillMissing held).mp hk |>.1, eq_comm,
      Option.or_eq_none_iff] at hf
    refine ⟨name, key, c', ?_, hf.1, hf.2, hc', rfl⟩
    rw [← hl.named, Keyed.contains, hr, Option.isSome_some]
  · rintro ⟨name, key, c', hnames, hn, ho, hc', rfl⟩
    rw [← hl.named, Keyed.contains] at hnames
    obtain ⟨held, hr⟩ := Option.isSome_iff_exists.mp hnames
    have hf := hl.field name key
    rw [hr, Option.getD_some, hn, ho, Option.or_none] at hf
    refine ⟨(name, held), Keyed.mem_of_get? hr, List.mem_filterMap.mpr ⟨key, ?_, ?_⟩⟩
    · rw [Table.mem_fillMissing]
      exact ⟨hf, by rw [get?_defaults_eq, hc', Option.map_some, Option.isSome_some]⟩
    · rw [hc', Option.map_some]

end Supply

end LayeredConfig
