import LayeredConfig.Proofs.Fields
import LayeredConfig.Proofs.Origins
import LayeredConfig.Proofs.Trail

/-!
# Which leaves are attributed

A leaf of a result is attributed if some source's first candidate for its key has its value. This
holds of all leaves but one kind: a general parameter at a file's root that becomes the field of a
connection for which the same file has another value, which a later file replaced. The candidates of
that file for the field begin with the value that was replaced, and no further one is recorded.
-/

namespace LayeredConfig

open Keyed (Sorted get?)
open Tracker (matching Knows)

namespace Supply

variable {s : Supply}

/-! ### Candidates of a pass -/

/-- All candidates that a pass over the answers reports, but for a made-up connection. -/
def candidates (s : Supply) : List Candidate := s.trail ++ s.settled

/-- What a tracker has recorded by then. -/
def recorded (s : Supply) : Tracker := s.candidates.foldl Tracker.record {}

/-- The first candidate of an answer's leaf is the leaf. -/
theorem find?_candidates_of_leaf (h : s.Ordered) (hd : s.Distinct) {a : Answer}
    (ha : a ∈ s.answers) {key : String} {v : Value} (hv : a.leaf? key = some v) :
    s.candidates.find? (matching key a.source) = some (a.report.candidate key v) := by
  rw [candidates, List.find?_append, find?_trail_of_leaf h hd ha hv, Option.some_or]

/-- What is a leaf of some answer is known. -/
theorem knows_of_leaf (h : s.Ordered) (hd : s.Distinct) {a : Answer} (ha : a ∈ s.answers)
    {key : String} {v w : Value} (hv : a.leaf? key = some v) (hs : v.same w = true) :
    s.recorded.Knows key w := by
  apply (Tracker.knows_foldl_iff _ key w).mpr
  exact ⟨a.source, _, find?_candidates_of_leaf h hd ha hv, hs⟩

/-- A candidate for a field is a leaf of an answer or a general parameter of an overlay, as long as
the layers have not settled. -/
theorem value_of_mem_trail (h : s.Ordered) (hp : s.Plain) {name key : String}
    (hn : PlainKey name) (hk : PlainKey key) {c : Candidate} (hc : c ∈ s.trail)
    (hck : c.key = connectionKey name key) :
    (∃ a ∈ s.answers, a.source = c.source ∧ a.leaf? (connectionKey name key) = some c.value) ∨
      ∃ a ∈ s.overlays, a.source = c.source ∧ a.general? key = some c.value := by
  rcases mem_trail h hc with ⟨a, ha, k, v, hv, rfl⟩ | ⟨a, ha, n, k, v, hnames, hg, rfl⟩
  · have hck : k = connectionKey name key := hck
    rw [hck] at hv
    exact Or.inl ⟨a, ha, rfl, hv⟩
  · have hm : a ∈ s.answers := List.mem_append_right _ ha
    obtain ⟨-, rfl⟩ := connectionKey_inj (hp.of_names hnames) (hp.of_general? hm hg) hn hk hck
    exact Or.inr ⟨a, ha, rfl, hg⟩

private theorem knows_of_offer (h : s.Ordered) (hd : s.Distinct) (hp : s.Plain) {name key : String}
    {v : Value} (hn : get? key (s.record name) = none) (ho : s.offer? name key = some v) :
    s.recorded.Knows (connectionKey name key) v := by
  obtain ⟨a, ha, hg, hc⟩ := exists_mem_trail_of_offer h hn ho
  have hm : a ∈ s.answers := List.mem_append_right _ ha
  have hname := hp.of_names (offer?_eq_some ho).2
  have hkey := hp.of_general? hm hg
  rw [recorded, candidates, List.foldl_append]
  apply (Tracker.recording_empty.foldl s.trail).knows_foldl
  apply Tracker.recording_empty.knows_of_mem rfl hc
  intro c hct hck hcs
  -- no leaf of this source can be in front: overlays have no such field at all
  rcases value_of_mem_trail h hp hname hkey hct hck with ⟨b, hb, hbs, hbv⟩ | ⟨b, hb, hbs, hbv⟩
  · obtain rfl := hd.eq_of_source hb hm (hbs.trans hcs)
    rw [Answer.leaf?_connectionKey (h b hb) (hp b hb) hname hkey,
      field?_eq_none_of_overlay h hn ha] at hbv
    cases hbv.1
  · obtain rfl := hd.eq_of_source (List.mem_append_right _ hb) hm (hbs.trans hcs)
    rw [hg] at hbv
    rw [← Option.some.inj hbv, v.same_self]

/-! ### General parameters that settle -/

/-- A general parameter at a file's root is misattributed as the field of a connection if the file has
a value for that field itself, and no answer has the value of the parameter there. -/
def Misattributed (s : Supply) (name key : String) : Prop :=
  get? key (s.record name) = none ∧
    ∃ before file after v w, s.files = before ++ file :: after ∧
      file.root? key = some v ∧ isGeneral (key, v) = true ∧
      (∀ a ∈ after ++ s.overlays, a.root? key = none) ∧
      file.field? name key = some w ∧ w.isLeaf = true ∧
      ∀ a ∈ s.answers, ∀ x, a.field? name key = some x → x.same v = false

/-- The candidate that settles into a field is the latest one at the root. -/
theorem mem_settled_iff (h : s.Ordered) (hp : s.Plain) {name key : String} {c' : Candidate}
    (hnames : s.names name = true) (hn : get? key (s.record name) = none)
    (ho : s.offer? name key = none) (hk : PlainKey key) (hc' : get? key s.standing = some c')
    {c : Candidate} (hck : c.key = connectionKey name key) :
    c ∈ s.settled ↔ c = c'.rekeyed (connectionKey name key) := by
  have keyed : ∀ {k d}, get? k s.standing = some d →
      d.key = k ∧ ∃ a ∈ s.answers, ∃ v, a.general? k = some v := by
    intro k d hd
    rw [get?_standing h, Option.filter_eq_some_iff] at hd
    obtain ⟨a, ha, v, hv, rfl⟩ := exists_of_latest? hd.1
    exact ⟨rfl, a, ha, v, hv⟩
  rw [mem_settled h (connected_of_names hnames)]
  constructor
  · rintro ⟨n, k, d, hnames', -, -, hd, rfl⟩
    obtain ⟨hdk, a, ha, v, hv⟩ := keyed hd
    have hck : connectionKey n d.key = connectionKey name key := hck
    rw [hdk] at hck
    obtain ⟨-, rfl⟩ := connectionKey_inj (hp.of_names hnames') (hp.of_general? ha hv)
      (hp.of_names hnames) hk hck
    rw [hdk, hck, Option.some.inj (hd.symm.trans hc')]
  · rintro rfl
    exact ⟨name, key, c', hnames, hn, ho, hc', by rw [(keyed hc').1]⟩

/-- The latest general parameter stands if it is the one at the root. -/
theorem get?_standing_of_latest (h : s.Ordered) {key : String} {v : Value} {c : Candidate}
    (hg : s.general? key = some v) (hl : s.latest? key = some c) (hv : c.value = v) :
    get? key s.standing = some c := by
  have hs : Layers.stands s.root (key, c) = true := by
    dsimp only [Layers.stands]
    rw [((general?_eq_some_iff s key v).mp hg).1, hv]
    exact v.same_self
  rw [get?_standing h, hl, Option.filter_some, hs, if_pos rfl]

private theorem split_of_not_overlay {before after : List Answer} {a : Answer}
    (hsplit : s.answers = before ++ a :: after) (ha : a ∉ s.overlays) :
    ∃ behind, s.files = before ++ a :: behind ∧ after = behind ++ s.overlays := by
  rw [answers, List.append_eq_append_iff] at hsplit
  rcases hsplit with ⟨front, -, ho⟩ | ⟨back, hf, hb⟩
  · rw [ho] at ha
    exact absurd (List.mem_append_right _ List.mem_cons_self) ha
  · cases back with
    | nil =>
      rw [List.nil_append] at hb
      rw [← hb] at ha
      exact absurd List.mem_cons_self ha
    | cons b behind =>
      rw [List.cons_append] at hb
      obtain ⟨rfl, htail⟩ := List.cons.inj hb
      exact ⟨behind, hf, htail⟩

private theorem Misattributed.not_knows (h : s.Ordered) (hd : s.Distinct) (hp : s.Plain)
    {name key : String} {v : Value} (hm : s.Misattributed name key)
    (hnames : s.names name = true) (ho : s.offer? name key = none)
    (hg : s.general? key = some v) : ¬ s.recorded.Knows (connectionKey name key) v := by
  obtain ⟨hn, before, file, after, v', w, hfiles, hr, hgen, hafter, hw, hl, hall⟩ := hm
  have hsplit : s.answers = before ++ file :: (after ++ s.overlays) := by
    rw [answers, hfiles, List.append_assoc, List.cons_append]
  have hfile : file ∈ s.answers := by
    rw [hsplit]
    exact List.mem_append_right _ List.mem_cons_self
  have hlast : s.last? (·.root? key) = some v' :=
    last?_eq_some_iff.mpr ⟨before, file, after ++ s.overlays, hsplit, hr, hafter⟩
  obtain ⟨hroot, -, hvt⟩ := (general?_eq_some_iff s key v).mp hg
  obtain rfl : v' = v :=
    Option.some.inj (hlast.symm.trans ((get?_root_eq_some_iff h hvt).mp hroot))
  have hlatest := latest?_of_split hsplit hr hgen hafter
  have hstand := get?_standing_of_latest h hg hlatest rfl
  obtain ⟨hname, hkey⟩ := Answer.plainKey_of_field? (hp file hfile) hw
  have hleaf := (Answer.leaf?_connectionKey (h file hfile) (hp file hfile) hname hkey).mpr ⟨hw, hl⟩
  rw [recorded, Tracker.knows_foldl_iff]
  rintro ⟨source, c, hc, hs⟩
  have hmatch := Tracker.matching_iff.mp (List.find?_some hc)
  rcases List.mem_append.mp (List.mem_of_find?_eq_some hc) with hm | hm
  · rcases value_of_mem_trail h hp hname hkey hm hmatch.1 with ⟨a, ha, -, hav⟩ | ⟨a, ha, -, hav⟩
    · rw [Answer.leaf?_connectionKey (h a ha) (hp a ha) hname hkey] at hav
      rw [hall a ha c.value hav.1] at hs
      cases hs
    · rw [Answer.general?_eq_none (hafter a (List.mem_append_right _ ha))] at hav
      cases hav
  · -- the candidate that settles is not the first of its file
    have hcs := (mem_settled_iff h hp hnames hn ho hkey hstand hmatch.1).mp hm
    have hsource : source = file.source := by
      rw [← hmatch.2, hcs]
      rfl
    rw [hsource, find?_candidates_of_leaf h hd hfile hleaf, Option.some.injEq] at hc
    rw [← hc] at hs
    exact Bool.false_ne_true ((hall file hfile w hw).symm.trans hs)

private theorem knows_of_standing (h : s.Ordered) (hd : s.Distinct) (hp : s.Plain)
    {name key : String}
    {v : Value} (hnames : s.names name = true) (hn : get? key (s.record name) = none)
    (ho : s.offer? name key = none) (hk : PlainKey key) {a : Answer} (ha : a ∈ s.answers)
    (hg : a.general? key = some v) (hs : get? key s.standing = some (a.report.candidate key v))
    (hl : a.leaf? (connectionKey name key) = none) :
    s.recorded.Knows (connectionKey name key) v := by
  have hsettled := fun {c : Candidate} (hck : c.key = connectionKey name key) ↦
    mem_settled_iff h hp hnames hn ho hk hs hck
  have hc := List.mem_append_right s.trail ((hsettled rfl).mpr rfl)
  apply Tracker.recording_empty.knows_of_mem rfl hc
  intro c hc hck hcs
  have hcs : c.source = a.source := hcs
  rcases List.mem_append.mp hc with hm | hm
  · rcases value_of_mem_trail h hp (hp.of_names hnames) hk hm hck with
      ⟨b, hb, hbs, hbv⟩ | ⟨b, hb, hbs, hbv⟩
    · obtain rfl := hd.eq_of_source hb ha (hbs.trans hcs)
      rw [hl] at hbv
      cases hbv
    · obtain rfl := hd.eq_of_source (List.mem_append_right _ hb) ha (hbs.trans hcs)
      rw [hg] at hbv
      rw [← Option.some.inj hbv, v.same_self]
  · rw [(hsettled hck).mp hm]
    exact v.same_self

private theorem knows_of_general (h : s.Ordered) (hd : s.Distinct) (hp : s.Plain)
    {name key : String}
    {v : Value} (hnames : s.names name = true) (hn : get? key (s.record name) = none)
    (ho : s.offer? name key = none) (hg : s.general? key = some v)
    (hm : ¬ s.Misattributed name key) : s.recorded.Knows (connectionKey name key) v := by
  by_contra hk
  apply hm
  obtain ⟨hroot, hpar, hvt⟩ := (general?_eq_some_iff s key v).mp hg
  have hgen : isGeneral (key, v) = true := isGeneral_iff.mpr ⟨hpar, hvt⟩
  obtain ⟨before, file, after, hsplit, hr, hafter⟩ :=
    last?_eq_some_iff.mp ((get?_root_eq_some_iff h hvt).mp hroot)
  have hfile : file ∈ s.answers := by
    rw [hsplit]
    exact List.mem_append_right _ List.mem_cons_self
  have hfg : file.general? key = some v := Answer.general?_eq_some_iff.mpr ⟨hr, hgen⟩
  have hname := hp.of_names hnames
  have hkey := hp.of_general? hfile hfg
  have hleaf := fun {a} (ha : a ∈ s.answers) {x} ↦
    Answer.leaf?_connectionKey (x := x) (h a ha) (hp a ha) hname hkey
  have hall : ∀ a ∈ s.answers, ∀ x, a.field? name key = some x → x.same v = false := by
    intro a ha x hx
    cases hl : x.isLeaf with
    | true =>
      rw [Bool.eq_false_iff]
      intro hs
      exact hk (knows_of_leaf h hd ha ((hleaf ha).mpr ⟨hx, hl⟩) hs)
    | false =>
      apply Value.same_of_table _ hvt
      rw [← Bool.not_eq_false]
      intro ht
      rw [Value.isLeaf_of_not_table ht] at hl
      cases hl
  cases hw : file.leaf? (connectionKey name key) with
  | some w =>
    obtain ⟨hw, hl⟩ := (hleaf hfile).mp hw
    have hov : file ∉ s.overlays := by
      intro ho
      rw [field?_eq_none_of_overlay h hn ho] at hw
      cases hw
    obtain ⟨behind, hfiles, rfl⟩ := split_of_not_overlay hsplit hov
    exact ⟨hn, before, file, behind, v, w, hfiles, hr, hgen, hafter, hw, hl, hall⟩
  | none =>
    have hstand := get?_standing_of_latest h hg (latest?_of_split hsplit hr hgen hafter) rfl
    exact absurd (knows_of_standing h hd hp hnames hn ho hkey hfile hfg hstand hw) hk

/-! ### Made-up connections -/

/-- What a tracker knows at the end of a pass over the answers: without a connection, the candidates
of what moves are those of the fields too. -/
def tracked (s : Supply) : Tracker :=
  if s.connected then s.recorded
  else s.recorded.replicate (Keyed.keys s.movable) Parameter.defaultConnection

/-- What moves has a plain key. -/
theorem plainKey_of_movable (h : s.Ordered) (hp : s.Plain) {key : String}
    (hk : key ∈ Keyed.keys s.movable) : PlainKey key := by
  obtain ⟨e, he, rfl⟩ := List.mem_map.mp hk
  exact Plain.of_root h hp (s.sorted_root.mem_iff.mp (List.mem_filter.mp he).1)

/-- So has the connection that is made up. -/
theorem plainKey_default : PlainKey Parameter.defaultConnection := by decide

/-- Without a connection the candidates of what moves are recorded after all others. -/
theorem tracked_of_not_connected (h : s.Ordered) (hp : s.Plain) (hc : s.connected = false) :
    s.tracked = ((Keyed.keys s.movable).flatMap
      (s.recorded.copies Parameter.defaultConnection)).foldl Tracker.record s.recorded := by
  rw [tracked, hc, if_neg Bool.false_ne_true]
  apply Tracker.replicate_eq
  intro key hk key' hk'
  exact connectionKey_ne plainKey_default (plainKey_of_movable h hp hk)
    (plainKey_of_movable h hp hk')

/-- A tracker that followed a pass has only recorded. -/
theorem recording_tracked (h : s.Ordered) (hp : s.Plain) : s.tracked.Recording := by
  have hrec : s.recorded.Recording := Tracker.recording_empty.foldl s.candidates
  cases hc : s.connected with
  | true =>
    rw [tracked, hc, if_pos rfl]
    exact hrec
  | false =>
    rw [tracked_of_not_connected h hp hc]
    exact hrec.foldl _

/-- What is recorded is known at the end of the pass. -/
theorem knows_tracked (h : s.Ordered) (hp : s.Plain) {key : String} {v : Value}
    (hk : s.recorded.Knows key v) : s.tracked.Knows key v := by
  cases hc : s.connected with
  | true =>
    rw [tracked, hc, if_pos rfl]
    exact hk
  | false =>
    rw [tracked_of_not_connected h hp hc]
    exact (Tracker.recording_empty.foldl s.candidates).knows_foldl hk _

/-- Without a connection nothing is recorded for a field of one. -/
theorem entriesAt_recorded_eq_nil (h : s.Ordered) (hp : s.Plain) (hc : s.connected = false)
    {name key : String} (hn : PlainKey name) (hk : PlainKey key) :
    s.recorded.entriesAt (connectionKey name key) = [] := by
  have hnone := (connected_eq_false_iff s).mp hc
  rw [recorded, candidates, settled_of_not_connected h hc, List.append_nil,
    Tracker.entriesAt_foldl_of_ne]
  · rfl
  · intro c hct hck
    rcases mem_trail h hct with ⟨a, ha, k, v, hv, rfl⟩ | ⟨-, -, n, -, -, hnames, -⟩
    · have hck : k = connectionKey name key := hck
      rw [hck, Answer.leaf?_connectionKey (h a ha) (hp a ha) hn hk, Answer.field?] at hv
      obtain ⟨record, hr, -⟩ := Option.bind_eq_some_iff.mp hv.1
      have hnames : s.names name = true := names_iff.mpr ⟨a, ha, record, hr⟩
      rw [hnone] at hnames
      cases hnames
    · rw [hnone] at hnames
      cases hnames

private theorem knows_of_movable (h : s.Ordered) (hd : s.Distinct) (hp : s.Plain)
    (hc : s.connected = false) {key : String} {v : Value} (hv : get? key s.movable = some v) :
    s.tracked.Knows (connectionKey Parameter.defaultConnection key) v := by
  have hrec : s.recorded.Recording := Tracker.recording_empty.foldl s.candidates
  have hl := Value.isLeaf_of_not_table (not_table_of_movable hv)
  have hroot : get? key s.root = some v := ((get?_movable_iff s key v).mp hv).1
  have hkey := Plain.of_root h hp hroot
  have hx : (get? key s.root).bind (·.descend []) = some v := by
    rw [hroot, Option.bind_some, Value.descend_nil]
  obtain ⟨a, ha, hav⟩ := exists_root_leaf h hx hl
  have hleaf : a.leaf? key = some v := Answer.leaf?_of_at? (h a ha) (hp a ha) hav hl
  have hentry : s.recorded.entryOf? key a.source =
      some { candidate := a.report.candidate key v } := by
    rw [recorded, Tracker.entryOf?_foldl, find?_candidates_of_leaf h hd ha hleaf]
    rfl
  have hmem : (a.report.candidate key v).rekeyed (connectionKey Parameter.defaultConnection key) ∈
      (Keyed.keys s.movable).flatMap (s.recorded.copies Parameter.defaultConnection) := by
    rw [List.mem_flatMap]
    refine ⟨key, List.mem_map_of_mem (Keyed.mem_of_get? hv), List.mem_map.mpr ?_⟩
    exact ⟨_, List.mem_of_find?_eq_some hentry, rfl⟩
  rw [tracked_of_not_connected h hp hc]
  refine hrec.knows_of_mem ?_ hmem ?_
  · exact entriesAt_recorded_eq_nil h hp hc plainKey_default hkey
  · intro c hcm hck hcs
    obtain ⟨k, hk, hc⟩ := List.mem_flatMap.mp hcm
    obtain ⟨e, he, rfl⟩ := List.mem_map.mp hc
    obtain ⟨-, rfl⟩ := connectionKey_inj plainKey_default (plainKey_of_movable h hp hk)
      plainKey_default hkey hck
    have hes : e.source = a.source := hcs
    have hfound := (hrec k).find?_source he
    rw [hes, ← Tracker.entryOf?, hentry] at hfound
    rw [← Option.some.inj hfound]
    exact v.same_self

/-! ### Leaves of the result -/

/-- What a misattributed field tells: the connection is there, and no overlay offers the field. -/
theorem Misattributed.facts (hp : s.Plain) {name key : String} (hm : s.Misattributed name key) :
    PlainKey name ∧ PlainKey key ∧ s.names name = true ∧ s.offer? name key = none := by
  obtain ⟨-, before, file, after, v, w, hfiles, -, -, hafter, hw, -, -⟩ := hm
  have hfile : file ∈ s.answers := by
    rw [answers, hfiles]
    exact List.mem_append_left _ (List.mem_append_right _ List.mem_cons_self)
  obtain ⟨hname, hkey⟩ := Answer.plainKey_of_field? (hp file hfile) hw
  obtain ⟨record, hr, -⟩ := Option.bind_eq_some_iff.mp hw
  refine ⟨hname, hkey, names_iff.mpr ⟨file, hfile, record, hr⟩, ?_⟩
  rw [Option.eq_none_iff_forall_ne_some]
  intro x hx
  obtain ⟨a, ha, hg⟩ := exists_of_offer? hx
  rw [Answer.general?_eq_none (hafter a (List.mem_append_right _ ha))] at hg
  cases hg

/-- Some general parameter is misattributed under a dotted key. -/
def MisattributedAt (s : Supply) (key : String) : Prop :=
  ∃ name field, key = connectionKey name field ∧ s.Misattributed name field

private theorem misattributed_of_dotted (hp : s.Plain) {path : List String} (hn : path ≠ [])
    (hpath : ∀ segment ∈ path, PlainKey segment) (hm : s.MisattributedAt (dotted path)) :
    ∃ name field, path = [connectionsKey, name, field] ∧ s.Misattributed name field := by
  obtain ⟨name, field, he, hm⟩ := hm
  obtain ⟨hname, hfield, -, -⟩ := hm.facts hp
  rw [connectionKey_eq_dotted hfield.1] at he
  exact ⟨name, field, dotted_inj hpath (plainKey_of_mem_path hname hfield) hn
    (List.cons_ne_nil _ _) he, hm⟩

private theorem root_leaf_known (h : s.Ordered) (hd : s.Distinct) (hp : s.Plain) {key : String}
    {rest : List String} {x : Value} (hl : x.isLeaf = true)
    (hx : (get? key s.root).bind (·.descend rest) = some x) :
    s.tracked.Knows (dotted (key :: rest)) x ∧ ¬ s.MisattributedAt (dotted (key :: rest)) := by
  obtain ⟨a, ha, hax⟩ := exists_root_leaf h hx hl
  have hpath : ∀ segment ∈ key :: rest, PlainKey segment := by
    rw [Table.at?_eq, ← Value.descend_table] at hax
    exact (hp a ha).descend hax
  constructor
  · have hleaf := Answer.leaf?_of_at? (h a ha) (hp a ha) hax hl
    exact knows_tracked h hp (knows_of_leaf h hd ha hleaf x.same_self)
  · intro hm
    obtain ⟨name, field, he, -⟩ := misattributed_of_dotted hp (List.cons_ne_nil _ _) hpath hm
    obtain ⟨rfl, -⟩ := List.cons.inj he
    rw [get?_root_connections h] at hx
    cases hx

private theorem record_leaf_known (h : s.Ordered) (hd : s.Distinct) (hp : s.Plain)
    {name key : String} {rest : List String} {x : Value} (hl : x.isLeaf = true)
    (hx : (get? key (s.record name)).bind (·.descend rest) = some x) :
    s.tracked.Knows (dotted (connectionsKey :: name :: key :: rest)) x ∧
      ¬ s.MisattributedAt (dotted (connectionsKey :: name :: key :: rest)) := by
  obtain ⟨a, ha, hax⟩ := exists_record_leaf h hx hl
  have hpath : ∀ segment ∈ connectionsKey :: name :: key :: rest, PlainKey segment := by
    rw [Table.at?_eq, ← Value.descend_table] at hax
    exact (hp a ha).descend hax
  constructor
  · have hleaf := Answer.leaf?_of_at? (h a ha) (hp a ha) hax hl
    exact knows_tracked h hp (knows_of_leaf h hd ha hleaf x.same_self)
  · intro hm
    obtain ⟨n, k, he, hn, -⟩ := misattributed_of_dotted hp (List.cons_ne_nil _ _) hpath hm
    rw [List.cons.injEq, List.cons.injEq, List.cons.injEq] at he
    obtain ⟨-, rfl, rfl, -⟩ := he
    rw [hn] at hx
    cases hx

/-- A general parameter that reaches a connection is known there unless it is misattributed. -/
theorem reaching_knows_iff (h : s.Ordered) (hd : s.Distinct) (hp : s.Plain) {name key : String}
    {x : Value} (hnames : s.names name = true) (hn : get? key (s.record name) = none)
    (hx : (s.offer? name key).or (s.general? key) = some x) :
    s.tracked.Knows (dotted [connectionsKey, name, key]) x ↔
      ¬ s.MisattributedAt (dotted [connectionsKey, name, key]) := by
  have hkey : PlainKey key := by
    rcases Option.or_eq_some_iff.mp hx with ho | ⟨-, hg⟩
    · obtain ⟨a, ha, hg⟩ := exists_of_offer? ho
      exact hp.of_general? (List.mem_append_right _ ha) hg
    · exact Plain.of_root h hp ((general?_eq_some_iff s key x).mp hg).1
  have hpath := plainKey_of_mem_path (hp.of_names hnames) hkey
  have hat : s.MisattributedAt (dotted [connectionsKey, name, key]) ↔
      s.Misattributed name key := by
    constructor
    · intro hm
      obtain ⟨n, k, he, hm⟩ := misattributed_of_dotted hp (List.cons_ne_nil _ _) hpath hm
      rw [List.cons.injEq, List.cons.injEq, List.cons.injEq] at he
      obtain ⟨-, rfl, rfl, -⟩ := he
      exact hm
    · intro hm
      exact ⟨name, key, (connectionKey_eq_dotted hkey.1 name).symm, hm⟩
  rw [hat, tracked, connected_of_names hnames, if_pos rfl, ← connectionKey_eq_dotted hkey.1]
  rcases Option.or_eq_some_iff.mp hx with ho | ⟨ho, hg⟩
  · apply iff_of_true (knows_of_offer h hd hp hn ho)
    intro hm
    obtain ⟨-, -, -, hnone⟩ := hm.facts hp
    rw [hnone] at ho
    cases ho
  · constructor
    · intro hk hm
      exact hm.not_knows h hd hp hnames ho hg hk
    · exact knows_of_general h hd hp hnames hn ho hg

private theorem moved_leaf_known (h : s.Ordered) (hd : s.Distinct) (hp : s.Plain)
    (hc : s.connected = false) {key : String} {x : Value} (hx : get? key s.movable = some x) :
    s.tracked.Knows (dotted [connectionsKey, Parameter.defaultConnection, key]) x ∧
      ¬ s.MisattributedAt (dotted [connectionsKey, Parameter.defaultConnection, key]) := by
  have hkey : PlainKey key :=
    plainKey_of_movable h hp (List.mem_map_of_mem (Keyed.mem_of_get? hx))
  constructor
  · rw [← connectionKey_eq_dotted hkey.1]
    exact knows_of_movable h hd hp hc hx
  · rintro ⟨name, field, -, hm⟩
    obtain ⟨-, -, hnames, -⟩ := hm.facts hp
    rw [(connected_eq_false_iff s).mp hc name] at hnames
    cases hnames

/-- The leaves of a result that are not known with their value are exactly those where a general
parameter is misattributed. -/
theorem knows_iff (h : s.Ordered) (hd : s.Distinct) (hp : s.Plain) {key : String} {v : Value}
    (hv : get? key s.result.flatten = some v) :
    s.tracked.Knows key v ↔ ¬ s.MisattributedAt key := by
  obtain ⟨path, rfl, hl, origin⟩ := exists_origin h hv
  cases origin with
  | root key rest hpath hx =>
    subst hpath
    obtain ⟨hk, hm⟩ := root_leaf_known h hd hp hl hx
    exact iff_of_true hk hm
  | own name key rest hpath hx =>
    subst hpath
    obtain ⟨hk, hm⟩ := record_leaf_known h hd hp hl hx
    exact iff_of_true hk hm
  | reaching name key hpath hnames hn hx =>
    subst hpath
    exact reaching_knows_iff h hd hp hnames hn hx
  | moved key hpath hc hx =>
    subst hpath
    obtain ⟨hk, hm⟩ := moved_leaf_known h hd hp hc hx
    exact iff_of_true hk hm

end Supply

end LayeredConfig
