import LayeredConfig.Proofs.Answer
import Mathlib.Data.List.Induction

/-!
# What the sources of a pass supply

The answers of a pass, files and overlays apart, and what they say without any merging going on: which
connections there are, the record of each, the values at the root, and the last value that any of
them has under a key. A pass is correct if its result is told by these.
-/

namespace LayeredConfig

open Keyed (Sorted get?)

/-- The answers of the files and of the overlays, each in list order. -/
structure Supply where
  files : List Answer := []
  overlays : List Answer := []

namespace Supply

/-- All answers in processing order. -/
def answers (s : Supply) : List Answer := s.files ++ s.overlays

/-- Every answer has ascending keys at every level. -/
def Ordered (s : Supply) : Prop := ∀ a ∈ s.answers, a.Ordered

/-- One more file behind the others. -/
def addFile (s : Supply) (a : Answer) : Supply := { s with files := s.files ++ [a] }

/-- One more overlay behind the others. -/
def addOverlay (s : Supply) (a : Answer) : Supply := { s with overlays := s.overlays ++ [a] }

/-- Whether some answer has a record for a connection. -/
def names (s : Supply) (name : String) : Bool := s.answers.any fun a ↦ (a.record? name).isSome

/-- Whether some answer has a record for any connection. -/
def connected (s : Supply) : Bool := s.answers.any fun a ↦ !a.config.connections.isEmpty

/-- What the last answer has that has anything. -/
def last? {α : Type} (s : Supply) (u : Answer → Option α) : Option α :=
  s.answers.reverse.findSome? u

/-- A value that files replace and overlays merge. -/
def stack (s : Supply) (u : Answer → Option Value) : Option Value :=
  s.overlays.foldl
    (fun o a ↦
      match u a with
      | some v => some (Table.merged o v)
      | none => o)
    (s.files.reverse.findSome? u)

/-- The own record of a connection: that of the last file that has one, taken as a whole, and the
records of all overlays merged into it in order. -/
def record (s : Supply) (name : String) : Table :=
  s.overlays.foldl
    (fun record a ↦
      match a.record? name with
      | some fields => Table.deepMerge record fields
      | none => record)
    ((s.files.reverse.findSome? (·.record? name)).getD [])

/-- The root: the keys of the files, each as the last file has it, and the roots of all overlays
merged into them in order. -/
def root (s : Supply) : Table :=
  s.overlays.foldl (fun t a ↦ Table.deepMerge t a.config.root)
    (s.files.foldl (fun t a ↦ Keyed.overlay t a.config.root) [])

/-- The general parameter at the root under a key. -/
def general? (s : Supply) (key : String) : Option Value :=
  (get? key s.root).filter fun v ↦ isGeneral (key, v)

/-- The general parameter that an overlay, the last one first, offers to a connection that is there
once the overlay is. -/
def offerAmong (files : List Answer) (name key : String) : List Answer → Option Value
  | [] => none
  | a :: earlier =>
    if names ⟨files, earlier.reverse ++ [a]⟩ name then
      (a.general? key).or (offerAmong files name key earlier)
    else none

/-- The latest general parameter that an overlay offers to a connection. -/
def offer? (s : Supply) (name key : String) : Option Value :=
  offerAmong s.files name key s.overlays.reverse

/-- An overlay has a general parameter under this key at a moment when there is a connection. -/
def Shown (s : Supply) (key : String) : Prop :=
  ∃ before a after, s.overlays = before ++ a :: after ∧ (a.general? key).isSome = true ∧
    connected ⟨s.files, before ++ [a]⟩ = true

instance (s : Supply) (key : String) : Decidable (s.Shown key) :=
  decidable_of_iff
    (∃ i : Fin s.overlays.length, (s.overlays[i].general? key).isSome = true ∧
      connected ⟨s.files, s.overlays.take (i + 1)⟩ = true) <| by
    constructor
    · rintro ⟨⟨i, hi⟩, hg, hc⟩
      refine ⟨s.overlays.take i, s.overlays[i], s.overlays.drop (i + 1), ?_, hg, ?_⟩
      · rw [List.getElem_cons_drop, List.take_append_drop]
      · rw [List.take_append_getElem]
        exact hc
    · rintro ⟨before, a, after, hsplit, hg, hc⟩
      have hi : before.length < s.overlays.length := by simp [hsplit]
      have ha : s.overlays[before.length] = a := by simp [hsplit]
      refine ⟨⟨before.length, hi⟩, by rw [Fin.getElem_fin, ha, hg], ?_⟩
      have htake : s.overlays.take (before.length + 1) = before ++ [a] := by
        rw [← List.take_append_getElem hi, ha, hsplit, List.take_left]
      rw [htake, hc]

/-- Induction over the answers of a pass in processing order. -/
@[elab_as_elim]
theorem induction {P : Supply → Prop} (empty : P {})
    (file : ∀ s a, s.overlays = [] → P s → P (s.addFile a))
    (overlay : ∀ s a, P s → P (s.addOverlay a)) (s : Supply) : P s := by
  obtain ⟨files, overlays⟩ := s
  induction overlays using List.reverseRecOn with
  | nil =>
    induction files using List.reverseRecOn with
    | nil => exact empty
    | append_singleton files a ih => exact file ⟨files, []⟩ a rfl ih
  | append_singleton overlays a ih => exact overlay ⟨files, overlays⟩ a ih

variable {s : Supply} {a : Answer}

/-! ### One more answer -/

/-- A new overlay is processed last. -/
theorem answers_addOverlay (s : Supply) (a : Answer) :
    (s.addOverlay a).answers = s.answers ++ [a] :=
  (List.append_assoc _ _ _).symm

/-- A new file is processed last as long as there are no overlays. -/
theorem answers_addFile (h : s.overlays = []) (a : Answer) :
    (s.addFile a).answers = s.answers ++ [a] := by
  simp only [answers, addFile, h, List.append_nil]

/-- If all answers are ordered and one is behind the others, it and they are ordered. -/
theorem Ordered.of_snoc {s' : Supply} (hs : s'.answers = s.answers ++ [a]) (h : s'.Ordered) :
    s.Ordered ∧ a.Ordered := by
  rw [Ordered, hs] at h
  exact ⟨fun b hb ↦ h b (List.mem_append_left _ hb), h a (List.mem_append_right _ (by simp))⟩

/-- One more answer has the last word. -/
theorem last?_snoc {α : Type} {s' : Supply} (hs : s'.answers = s.answers ++ [a])
    (u : Answer → Option α) : s'.last? u = (u a).or (s.last? u) := by
  rw [last?, hs, List.reverse_append, List.reverse_singleton, List.singleton_append,
    List.findSome?_cons, last?]
  cases u a <;> rfl

/-- What the last answer has that has anything, and no later one does. -/
theorem last?_eq_some_iff {α : Type} {u : Answer → Option α} {x : α} :
    s.last? u = some x ↔
      ∃ before a after, s.answers = before ++ a :: after ∧ u a = some x ∧
        ∀ b ∈ after, u b = none := by
  rw [last?, List.findSome?_eq_some_iff]
  constructor
  · rintro ⟨after, a, before, hsplit, ha, hafter⟩
    refine ⟨before.reverse, a, after.reverse, ?_, ha, fun b hb ↦ hafter b (by simpa using hb)⟩
    rw [← List.reverse_reverse s.answers, hsplit, List.reverse_append, List.reverse_cons,
      List.append_assoc, List.singleton_append]
  · rintro ⟨before, a, after, hsplit, ha, hafter⟩
    refine ⟨after.reverse, a, before.reverse, ?_, ha, fun b hb ↦ hafter b (by simpa using hb)⟩
    rw [hsplit, List.reverse_append, List.reverse_cons, List.append_assoc, List.singleton_append]

/-- Nothing is last where no answer has anything. -/
theorem last?_eq_none_iff {α : Type} {u : Answer → Option α} :
    s.last? u = none ↔ ∀ a ∈ s.answers, u a = none := by
  simp only [last?, List.findSome?_eq_none_iff, List.mem_reverse]

/-- A connection is named by an answer that has a record for it. -/
theorem names_iff {name : String} :
    s.names name = true ↔ ∃ a ∈ s.answers, ∃ record, a.record? name = some record := by
  simp only [names, List.any_eq_true, Option.isSome_iff_exists]

/-- One more answer may name one more connection. -/
theorem names_snoc {s' : Supply} (hs : s'.answers = s.answers ++ [a]) (name : String) :
    s'.names name = (s.names name || (a.record? name).isSome) := by
  simp only [names, hs, List.any_append, List.any_cons, List.any_nil, Bool.or_false]

/-- One more file replaces what was there. -/
theorem stack_addFile (h : s.overlays = []) (a : Answer) (u : Answer → Option Value) :
    (s.addFile a).stack u = (u a).or (s.stack u) := by
  simp only [stack, addFile, h, List.foldl_nil, List.reverse_append, List.reverse_singleton,
    List.singleton_append, List.findSome?_cons]
  cases u a <;> rfl

/-- One more overlay is merged into what was there. -/
theorem stack_addOverlay (s : Supply) (a : Answer) (u : Answer → Option Value) :
    (s.addOverlay a).stack u =
      match u a with
      | some v => some (Table.merged (s.stack u) v)
      | none => s.stack u := by
  simp only [stack, addOverlay, List.foldl_append, List.foldl_cons, List.foldl_nil]

/-- One more file replaces the record. -/
theorem record_addFile (h : s.overlays = []) (a : Answer) (name : String) :
    (s.addFile a).record name = (a.record? name).getD (s.record name) := by
  simp only [record, addFile, h, List.foldl_nil, List.reverse_append, List.reverse_singleton,
    List.singleton_append, List.findSome?_cons]
  cases a.record? name <;> rfl

/-- One more overlay is merged into the record. -/
theorem record_addOverlay (s : Supply) (a : Answer) (name : String) :
    (s.addOverlay a).record name =
      match a.record? name with
      | some fields => Table.deepMerge (s.record name) fields
      | none => s.record name := by
  simp only [record, addOverlay, List.foldl_append, List.foldl_cons, List.foldl_nil]

/-- One more file replaces root keys. -/
theorem root_addFile (h : s.overlays = []) (a : Answer) :
    (s.addFile a).root = Keyed.overlay s.root a.config.root := by
  simp only [root, addFile, h, List.foldl_nil, List.foldl_append, List.foldl_cons]

/-- The root of one more overlay is merged into the root. -/
theorem root_addOverlay (s : Supply) (a : Answer) :
    (s.addOverlay a).root = Table.deepMerge s.root a.config.root := by
  simp only [root, addOverlay, List.foldl_append, List.foldl_cons, List.foldl_nil]

/-- Without overlays nothing is offered. -/
theorem offer?_of_files (h : s.overlays = []) (name key : String) : s.offer? name key = none := by
  rw [offer?, h]
  rfl

/-- One more overlay offers its general parameters to all connections that are there then. -/
theorem offer?_addOverlay (s : Supply) (a : Answer) (name key : String) :
    (s.addOverlay a).offer? name key =
      if (s.addOverlay a).names name then (a.general? key).or (s.offer? name key) else none := by
  have hr : (s.addOverlay a).overlays.reverse = a :: s.overlays.reverse := by
    rw [addOverlay, List.reverse_append]
    rfl
  rw [offer?, hr, offerAmong, List.reverse_reverse]
  rfl

/-- One more overlay shows its general parameters if there is a connection then. -/
theorem shown_addOverlay (s : Supply) (a : Answer) (key : String) :
    (s.addOverlay a).Shown key ↔
      s.Shown key ∨ ((a.general? key).isSome = true ∧ (s.addOverlay a).connected = true) := by
  constructor
  · rintro ⟨before, b, after, hsplit, hb⟩
    rcases List.eq_nil_or_concat after with rfl | ⟨init, last, rfl⟩
    · obtain ⟨rfl, hab⟩ := List.append_inj' hsplit rfl
      obtain rfl := List.singleton_inj.mp hab
      exact Or.inr hb
    · have hinit : s.overlays ++ [a] = (before ++ b :: init) ++ [last] := by
        rw [List.append_assoc, List.cons_append]
        rw [List.concat_eq_append] at hsplit
        exact hsplit
      obtain ⟨hinit, -⟩ := List.append_inj' hinit rfl
      exact Or.inl ⟨before, b, init, hinit, hb⟩
  · rintro (⟨before, b, after, hsplit, hb⟩ | h)
    · refine ⟨before, b, after ++ [a], ?_, hb⟩
      rw [addOverlay, hsplit, List.append_assoc, List.cons_append]
    · exact ⟨s.overlays, a, [], rfl, h⟩

/-- Without overlays nothing is shown. -/
theorem not_shown_of_files (h : s.overlays = []) (key : String) : ¬ s.Shown key := by
  rintro ⟨before, a, after, hsplit, -⟩
  rw [h] at hsplit
  exact List.append_ne_nil_of_right_ne_nil before (List.cons_ne_nil a after) hsplit.symm

/-- There is no connection if no answer names one. -/
theorem connected_eq_false_iff (s : Supply) :
    s.connected = false ↔ ∀ name, s.names name = false := by
  simp only [connected, names, List.any_eq_false, Bool.not_eq_true, Bool.not_eq_false',
    List.isEmpty_iff, Keyed.eq_nil_iff, Answer.record?, Option.isSome_eq_false_iff,
    Option.isNone_iff_eq_none]
  exact ⟨fun h name a ha ↦ h a ha name, fun h a ha name ↦ h name a ha⟩

/-- Where some answer names a connection there is one. -/
theorem connected_of_names {name : String} (hn : s.names name = true) : s.connected = true := by
  cases hc : s.connected with
  | true => rfl
  | false =>
    rw [(connected_eq_false_iff s).mp hc name] at hn
    cases hn

/-- A map that has exactly the names of the connections is empty if there is none. -/
theorem isEmpty_eq {α : Type} {m : Keyed α} (h : ∀ name, Keyed.contains name m = s.names name) :
    m.isEmpty = !s.connected := by
  rw [Bool.eq_iff_iff, List.isEmpty_iff, Keyed.eq_nil_iff, Bool.not_eq_true',
    connected_eq_false_iff]
  apply forall_congr'
  intro name
  rw [← h, Keyed.contains_eq_false_iff]

/-! ### Stacks -/

/-- A stack is empty where no answer has anything. -/
theorem stack_eq_none_iff (s : Supply) (u : Answer → Option Value) :
    s.stack u = none ↔ s.last? u = none := by
  induction s using induction with
  | empty => exact Iff.rfl
  | file s a h ih =>
    rw [stack_addFile h, last?_snoc (answers_addFile h a), Option.or_eq_none_iff,
      Option.or_eq_none_iff, ih]
  | overlay s a ih =>
    rw [stack_addOverlay, last?_snoc (answers_addOverlay s a), Option.or_eq_none_iff, ← ih]
    cases u a <;> simp

/-- A stack holds a value that is no table exactly if the last answer has it. -/
theorem stack_eq_some_iff (s : Supply) (u : Answer → Option Value) {v : Value}
    (hv : v.isTable = false) : s.stack u = some v ↔ s.last? u = some v := by
  induction s using induction with
  | empty => exact Iff.rfl
  | file s a h ih =>
    rw [stack_addFile h, last?_snoc (answers_addFile h a)]
    cases u a with
    | none => exact ih
    | some w => exact Iff.rfl
  | overlay s a ih =>
    rw [stack_addOverlay, last?_snoc (answers_addOverlay s a)]
    cases u a with
    | none => exact ih
    | some w =>
      simp only [Option.some_or, Option.some.injEq]
      constructor
      · intro h
        have hw : w.isTable = false := by rw [← Table.isTable_merged (s.stack u), h, hv]
        rw [← h, Table.merged_of_not_table _ hw]
      · rintro rfl
        exact Table.merged_of_not_table _ hv

/-- A stack of ordered values is ordered. -/
theorem ordered_stack {u : Answer → Option Value}
    (hu : ∀ a ∈ s.answers, ∀ v, u a = some v → v.Ordered) {v : Value} (hv : s.stack u = some v) :
    v.Ordered := by
  induction s using induction generalizing v with
  | empty => cases hv
  | file s a hs ih =>
    rw [answers_addFile hs] at hu
    rw [stack_addFile hs, Option.or_eq_some_iff] at hv
    rcases hv with hv | ⟨-, hv⟩
    · exact hu a List.mem_concat_self v hv
    · exact ih (fun b hb ↦ hu b (List.mem_append_left _ hb)) hv
  | overlay s a ih =>
    rw [answers_addOverlay] at hu
    have ih := fun {w} ↦ ih (fun b hb ↦ hu b (List.mem_append_left _ hb)) (v := w)
    rw [stack_addOverlay] at hv
    cases hua : u a with
    | none =>
      rw [hua] at hv
      exact ih hv
    | some w =>
      rw [hua] at hv
      obtain rfl := Option.some.inj hv
      exact Table.ordered_merged (fun x hx ↦ ih hx)
        (hu a List.mem_concat_self w hua)

/-- The root is sorted. -/
theorem sorted_root (s : Supply) : Sorted s.root := by
  induction s using induction with
  | empty => exact Keyed.sorted_nil
  | file s a h ih => rw [root_addFile h]; exact ih.overlay _
  | overlay s a ih => rw [root_addOverlay]; exact Table.sorted_deepMerge ih _

/-- A root key is a stack of the values that the answers have under it. -/
theorem get?_root (h : s.Ordered) (key : String) :
    get? key s.root = s.stack (·.root? key) := by
  induction s using induction with
  | empty => rfl
  | file s a hs ih =>
    obtain ⟨ho, ha⟩ := h.of_snoc (answers_addFile hs a)
    rw [root_addFile hs, stack_addFile hs, Keyed.get?_overlay _ ha.sorted_root, ih ho]
    rfl
  | overlay s a ih =>
    obtain ⟨ho, ha⟩ := h.of_snoc (answers_addOverlay s a)
    rw [root_addOverlay, stack_addOverlay, Table.get?_deepMerge _ ha.sorted_root, ih ho]
    rfl

/-- The general parameter under a key is the value there, if it is one. -/
theorem general?_eq_some_iff (s : Supply) (key : String) (v : Value) :
    s.general? key = some v ↔
      get? key s.root = some v ∧ Parameter.isParameter key = true ∧ v.isTable = false := by
  rw [general?, Option.filter_eq_some_iff, isGeneral_iff]

/-! ### Records -/

/-- What the answers have for a connection is ordered. -/
theorem ordered_recordValue (h : s.Ordered) (name : String) :
    ∀ a ∈ s.answers, ∀ v, a.recordValue? name = some v → v.Ordered := by
  intro a ha v hv
  obtain ⟨record, hr, rfl⟩ := Option.map_eq_some_iff.mp hv
  exact (h a ha).record? hr

/-- The own record of a connection is sorted. -/
theorem sorted_record (h : s.Ordered) (name : String) : Sorted (s.record name) := by
  induction s using induction with
  | empty => exact Keyed.sorted_nil
  | file s a hs ih =>
    obtain ⟨ho, ha⟩ := h.of_snoc (answers_addFile hs a)
    rw [record_addFile hs]
    cases hr : a.record? name with
    | none => exact ih ho
    | some record => exact (ha.record? hr).sorted
  | overlay s a ih =>
    obtain ⟨ho, -⟩ := h.of_snoc (answers_addOverlay s a)
    rw [record_addOverlay]
    cases a.record? name with
    | none => exact ih ho
    | some fields => exact Table.sorted_deepMerge (ih ho) _

/-- A connection that no answer names has an empty record. -/
theorem record_of_not_names {name : String} (h : s.names name = false) : s.record name = [] := by
  induction s using induction with
  | empty => rfl
  | file s a hs ih =>
    rw [names_snoc (answers_addFile hs a), Bool.or_eq_false_iff] at h
    rw [record_addFile hs, Option.isSome_eq_false_iff.mp h.2 |> Option.isNone_iff_eq_none.mp]
    exact ih h.1
  | overlay s a ih =>
    rw [names_snoc (answers_addOverlay s a), Bool.or_eq_false_iff] at h
    rw [record_addOverlay, Option.isSome_eq_false_iff.mp h.2 |> Option.isNone_iff_eq_none.mp]
    exact ih h.1

/-- The own record of a connection is a stack of the records that the answers have for it. -/
theorem stack_record (h : s.Ordered) (name : String) :
    s.stack (·.recordValue? name) =
      if s.names name then some (.table (s.record name)) else none := by
  induction s using induction with
  | empty => rfl
  | file s a hs ih =>
    obtain ⟨ho, -⟩ := h.of_snoc (answers_addFile hs a)
    rw [stack_addFile hs, names_snoc (answers_addFile hs a), record_addFile hs, ih ho,
      Answer.recordValue?]
    cases a.record? name <;> simp
  | overlay s a ih =>
    obtain ⟨ho, ha⟩ := h.of_snoc (answers_addOverlay s a)
    rw [stack_addOverlay, names_snoc (answers_addOverlay s a), record_addOverlay, ih ho,
      Answer.recordValue?]
    cases hr : a.record? name with
    | none => simp
    | some fields =>
      have hs : Sorted fields := (ha.record? hr).sorted
      cases hn : s.names name with
      | true => simp [Table.merged_table]
      | false => simp [Table.merged_none, record_of_not_names hn, Table.deepMerge_nil hs]

/-! ### Offers -/

/-- What is offered is a general parameter, and to a connection that is there. -/
theorem offer?_eq_some {name key : String} {v : Value} (h : s.offer? name key = some v) :
    isGeneral (key, v) = true ∧ s.names name = true := by
  induction s using induction generalizing v with
  | empty => cases h
  | file s a hs ih =>
    rw [offer?_of_files (by exact hs)] at h
    cases h
  | overlay s a ih =>
    rw [offer?_addOverlay] at h
    split at h
    · next hn =>
      refine ⟨?_, hn⟩
      rcases Option.or_eq_some_iff.mp h with hg | ⟨-, ho⟩
      · exact (Answer.general?_eq_some_iff.mp hg).2
      · exact (ih ho).1
    · cases h

/-- What is offered is a general parameter of some overlay. -/
theorem exists_of_offer? {name key : String} {v : Value} (h : s.offer? name key = some v) :
    ∃ a ∈ s.overlays, a.general? key = some v := by
  induction s using induction generalizing v with
  | empty => cases h
  | file s a hs ih =>
    rw [offer?_of_files (by exact hs)] at h
    cases h
  | overlay s a ih =>
    rw [offer?_addOverlay] at h
    split at h
    · rcases Option.or_eq_some_iff.mp h with hg | ⟨-, ho⟩
      · exact ⟨a, List.mem_concat_self, hg⟩
      · obtain ⟨b, hb, hg⟩ := ih ho
        exact ⟨b, List.mem_append_left _ hb, hg⟩
    · cases h

/-- What is offered last is the last value at the root, unless that is a table. -/
theorem offer?_eq_last {name key : String} {v w : Value} (h : s.offer? name key = some v)
    (hl : s.last? (·.root? key) = some w) (hw : w.isTable = false) : v = w := by
  have hp : Parameter.isParameter key = true := (isGeneral_iff.mp (offer?_eq_some h).1).1
  induction s using induction generalizing v with
  | empty => cases h
  | file s a hs ih =>
    rw [offer?_of_files (by exact hs)] at h
    cases h
  | overlay s a ih =>
    rw [last?_snoc (answers_addOverlay s a)] at hl
    rw [offer?_addOverlay] at h
    split at h
    · cases hr : a.root? key with
      | none =>
        rw [hr, Option.none_or] at hl
        rw [Answer.general?_eq_none hr, Option.none_or] at h
        exact ih h hl
      | some x =>
        rw [hr, Option.some_or] at hl
        obtain rfl := Option.some.inj hl
        have hg : a.general? key = some x :=
          Answer.general?_eq_some_iff.mpr ⟨hr, isGeneral_iff.mpr ⟨hp, hw⟩⟩
        rw [hg] at h
        exact (Option.some.inj h).symm
    · cases h

end Supply

end LayeredConfig
