import LayeredConfig.Proofs.Keyed
import LayeredConfig.History.Tracker

/-!
# What a tracker knows

A tracker that has only recorded candidates knows, for each key and source, the first candidate that
the source had for the key. Closing a history then selects exactly one entry if some entry has the
final value, and none otherwise.
-/

namespace LayeredConfig

open Keyed (Sorted)

/-- Of some things with different names, each is the only one with its name. -/
theorem filter_of_nodup {α : Type} {name : α → String} {l : List α} (hn : (l.map name).Nodup)
    {a : α} (ha : a ∈ l) : l.filter (fun b ↦ name b == name a) = [a] := by
  induction l with
  | nil => cases ha
  | cons b rest ih =>
    rw [List.map_cons, List.nodup_cons] at hn
    rcases List.mem_cons.mp ha with rfl | hr
    · have hrest : rest.filter (fun b ↦ name b == name a) = [] := by
        rw [List.filter_eq_nil_iff]
        intro x hx hxs
        exact hn.1 (List.mem_map.mpr ⟨x, hx, beq_iff_eq.mp hxs⟩)
      rw [List.filter_cons, if_pos (beq_self_eq_true _), hrest]
    · have hne : ¬ (name b == name a) = true := by
        intro hs
        exact hn.1 (List.mem_map.mpr ⟨a, hr, (beq_iff_eq.mp hs).symm⟩)
      rw [List.filter_cons, if_neg hne]
      exact ih hn.2 hr

namespace History

/-- The entries of a history where each source has one at most and none is used. -/
structure Fresh (entries : List Entry) : Prop where
  nodup : (entries.map Entry.source).Nodup
  unused : ∀ e ∈ entries, e.used = false

/-- The entries with a candidate of one more source. -/
def extend (entries : List Entry) (c : Candidate) : List Entry :=
  if (entries.map Entry.source).contains c.source then entries
  else entries ++ [{ candidate := c }]

/-- Recording adds an entry for a source that has none. -/
theorem entries_record (h : History) (c : Candidate) :
    (h.record c).entries = extend h.entries c := by
  rw [record, extend, sources]
  split <;> rfl

/-- One more entry for a source that has none leaves one entry for each source. -/
theorem nodup_extend {entries : List Entry} (hn : (entries.map Entry.source).Nodup)
    (c : Candidate) : ((extend entries c).map Entry.source).Nodup := by
  rw [extend]
  split
  · exact hn
  · next hc =>
    have hs : c.source ∉ entries.map Entry.source := by
      intro hm
      exact hc (List.contains_iff_mem.mpr hm)
    rw [List.map_append, List.nodup_append]
    refine ⟨hn, List.pairwise_singleton _ _, ?_⟩
    intro a ha b hb hab
    rw [List.map_singleton, List.mem_singleton] at hb
    rw [hab, hb] at ha
    exact hs ha

/-- One more entry for a source that has none is fresh. -/
theorem Fresh.extend {entries : List Entry} (hf : Fresh entries) (c : Candidate) :
    Fresh (extend entries c) where
  nodup := nodup_extend hf.nodup c
  unused := by
    rw [History.extend]
    split
    · exact hf.unused
    · intro e he
      rcases List.mem_append.mp he with he | he
      · exact hf.unused e he
      · rw [List.mem_singleton.mp he]

private theorem find?_extend (entries : List Entry) (c : Candidate) (source : String) :
    (extend entries c).find? (fun e ↦ e.source == source) =
      (entries.find? fun e ↦ e.source == source).or
        (if c.source = source then some { candidate := c } else none) := by
  rw [extend]
  split
  · next hc =>
    split
    · next hs =>
      subst hs
      obtain ⟨e, he, hes⟩ := List.mem_map.mp (List.contains_iff_mem.mp hc)
      have hf : (entries.find? fun e ↦ e.source == c.source).isSome = true := by
        rw [List.find?_isSome]
        exact ⟨e, he, beq_iff_eq.mpr hes⟩
      obtain ⟨e', he'⟩ := Option.isSome_iff_exists.mp hf
      rw [he', Option.some_or]
    · rw [Option.or_none]
  · rw [List.find?_append, List.find?_singleton]
    congr 1
    simp [Entry.source]

/-- In a fresh history the entries of a source are one at most. -/
theorem Fresh.filter_source {entries : List Entry} (hf : Fresh entries) {e : Entry}
    (he : e ∈ entries) : entries.filter (fun e' ↦ e'.source == e.source) = [e] :=
  filter_of_nodup hf.nodup he

/-- In a fresh history an entry is found by its source. -/
theorem Fresh.find?_source {entries : List Entry} (hf : Fresh entries) {e : Entry}
    (he : e ∈ entries) : entries.find? (fun e' ↦ e'.source == e.source) = some e := by
  rw [← List.head?_filter, hf.filter_source he]
  rfl

/-- No entry of a fresh history is used. -/
theorem Fresh.filter_used {entries : List Entry} (hf : Fresh entries) :
    entries.filter Entry.used = [] := by
  rw [List.filter_eq_nil_iff]
  intro e he hu
  rw [hf.unused e he] at hu
  cases hu

/-- Selecting the source of an entry marks all entries, and the entry has the final value. -/
theorem Fresh.select_eq {h : History} (hf : Fresh h.entries) {winner : Entry}
    (hm : winner ∈ h.entries) :
    (h.select? winner.source).getD h =
      { h with entries := h.entries.map (mark winner.source), final := some winner.value } := by
  rw [select?, hf.find?_source hm]
  rfl

/-- What is marked as used is told by the source. -/
theorem used_comp_mark (source : String) :
    Entry.used ∘ mark source = fun e ↦ e.source == source := by
  funext e
  change (mark source e).used = _
  rw [mark]
  cases e.source == source <;> rfl

/-- Selecting the source of an entry marks this entry alone as used. -/
theorem Fresh.used_select {h : History} (hf : Fresh h.entries) {winner : Entry}
    (hm : winner ∈ h.entries) :
    ((h.select? winner.source).getD h).entries.filter Entry.used =
      [mark winner.source winner] := by
  rw [hf.select_eq hm]
  dsimp only
  rw [List.filter_map, used_comp_mark, hf.filter_source hm, List.map_singleton]

/-- Closing a fresh history selects exactly one entry with the final value, if there is one. -/
theorem Fresh.close_iff {h : History} (hf : Fresh h.entries) (v : Value) :
    (∃ e, (h.close v).entries.filter Entry.used = [e] ∧ e.value.same v = true) ↔
      ∃ e ∈ h.entries, e.value.same v = true := by
  rw [close]
  cases hw : h.entries.reverse.find? fun e ↦ e.value.same v with
  | none =>
    have hnone : ∀ e ∈ h.entries, ¬ e.value.same v = true := fun e he ↦
      List.find?_eq_none.mp hw e (List.mem_reverse.mpr he)
    constructor
    · rintro ⟨e, he, -⟩
      rw [hf.filter_used] at he
      cases he
    · rintro ⟨e, he, hs⟩
      exact absurd hs (hnone e he)
  | some winner =>
    have hm : winner ∈ h.entries := List.mem_reverse.mp (List.mem_of_find?_eq_some hw)
    have hs : winner.value.same v = true := by
      have hp := List.find?_some hw
      exact hp
    have hvalue : (mark winner.source winner).value = winner.value := by
      rw [mark, beq_self_eq_true]
      rfl
    constructor
    · intro _
      exact ⟨winner, hm, hs⟩
    · intro _
      refine ⟨mark winner.source winner, ?_, by rw [hvalue, hs]⟩
      exact hf.used_select hm

end History

namespace Tracker

open History (Fresh)

variable {t : Tracker}

/-- The entries under a key. -/
def entriesAt (t : Tracker) (key : String) : List Entry :=
  ((Keyed.get? key t.histories).map History.entries).getD []

/-- The entry of a source under a key. -/
def entryOf? (t : Tracker) (key source : String) : Option Entry :=
  (t.entriesAt key).find? fun e ↦ e.source == source

/-- Each source has one entry at most under each key and none is used. -/
def Recording (t : Tracker) : Prop := ∀ key, Fresh (t.entriesAt key)

/-- A tracker without histories has only recorded. -/
theorem recording_empty : Recording {} := fun _ ↦ ⟨List.nodup_nil, fun _ he ↦ by cases he⟩

/-- Recording changes the history of the candidate's key. -/
theorem entriesAt_record (t : Tracker) (c : Candidate) (key : String) :
    (t.record c).entriesAt key =
      if c.key = key then History.extend (t.entriesAt key) c else t.entriesAt key := by
  rw [entriesAt, record, update, Keyed.get?_insert]
  by_cases hk : c.key = key
  · subst hk
    rw [if_pos rfl, if_pos rfl, Option.map_some, Option.getD_some, History.entries_record,
      entriesAt]
    cases Keyed.get? c.key t.histories <;> rfl
  · rw [if_neg hk, if_neg hk, entriesAt]

private theorem Recording.record (h : t.Recording) (c : Candidate) : (t.record c).Recording := by
  intro key
  rw [entriesAt_record]
  split
  · exact (h key).extend c
  · exact h key

private theorem entryOf?_record (t : Tracker) (c : Candidate) (key source : String) :
    (t.record c).entryOf? key source =
      (t.entryOf? key source).or
        (if c.key = key ∧ c.source = source then some { candidate := c } else none) := by
  rw [entryOf?, entriesAt_record]
  by_cases hk : c.key = key
  · rw [if_pos hk, History.find?_extend, entryOf?]
    simp only [hk, true_and]
  · rw [if_neg hk, if_neg (fun h ↦ hk h.1), Option.or_none, entryOf?]

/-- Whether a candidate is one of a source for a key. -/
def matching (key source : String) (c : Candidate) : Bool := c.key == key && c.source == source

/-- What a matching candidate is. -/
theorem matching_iff {key source : String} {c : Candidate} :
    matching key source c = true ↔ c.key = key ∧ c.source = source := by
  rw [matching, Bool.and_eq_true, beq_iff_eq, beq_iff_eq]

/-- Recording many candidates keeps one entry for each source. -/
theorem Recording.foldl (h : t.Recording) (cs : List Candidate) :
    (cs.foldl Tracker.record t).Recording := by
  induction cs generalizing t with
  | nil => exact h
  | cons c cs ih => exact ih (h.record c)

/-- Of many candidates the first of each source for each key is recorded. -/
theorem entryOf?_foldl (t : Tracker) (cs : List Candidate) (key source : String) :
    (cs.foldl Tracker.record t).entryOf? key source =
      (t.entryOf? key source).or
        ((cs.find? (matching key source)).map fun c ↦ { candidate := c }) := by
  induction cs generalizing t with
  | nil => exact Option.or_none.symm
  | cons c cs ih =>
    rw [List.foldl_cons, ih, entryOf?_record, Option.or_assoc, List.find?_cons, matching]
    by_cases hm : c.key = key ∧ c.source = source
    · have hb : (c.key == key && c.source == source) = true := by simpa using hm
      rw [if_pos hm, hb]
      rfl
    · have hb : (c.key == key && c.source == source) = false := by simpa using hm
      rw [if_neg hm, hb]
      rfl

/-- Some entry under a key has a value that is the same as a given one. -/
def Knows (t : Tracker) (key : String) (v : Value) : Prop :=
  ∃ e ∈ t.entriesAt key, e.value.same v = true

/-- What is known under a key is known from some source. -/
theorem Recording.knows_iff (h : t.Recording) (key : String) (v : Value) :
    t.Knows key v ↔ ∃ source e, t.entryOf? key source = some e ∧ e.value.same v = true := by
  constructor
  · rintro ⟨e, he, hs⟩
    exact ⟨e.source, e, (h key).find?_source he, hs⟩
  · rintro ⟨source, e, he, hs⟩
    exact ⟨e, List.mem_of_find?_eq_some he, hs⟩

/-- What a tracker knows from candidates. -/
theorem knows_foldl_iff (cs : List Candidate) (key : String) (v : Value) :
    (cs.foldl Tracker.record {}).Knows key v ↔
      ∃ source c, cs.find? (matching key source) = some c ∧ c.value.same v = true := by
  rw [(recording_empty.foldl cs).knows_iff]
  simp only [entryOf?_foldl]
  constructor
  · rintro ⟨source, e, he, hs⟩
    obtain ⟨c, hc, rfl⟩ := Option.map_eq_some_iff.mp he
    exact ⟨source, c, hc, hs⟩
  · rintro ⟨source, c, hc, hs⟩
    refine ⟨source, { candidate := c }, ?_, hs⟩
    rw [hc]
    rfl

/-- What is known stays known when more candidates are recorded. -/
theorem Recording.knows_foldl (h : t.Recording) {key : String} {v : Value} (hk : t.Knows key v)
    (cs : List Candidate) : (cs.foldl Tracker.record t).Knows key v := by
  obtain ⟨source, e, he, hs⟩ := (h.knows_iff key v).mp hk
  apply ((h.foldl cs).knows_iff key v).mpr
  refine ⟨source, e, ?_, hs⟩
  rw [entryOf?_foldl, he, Option.some_or]

/-- A value becomes known under a new key if all candidates of one source for it have this value. -/
theorem Recording.knows_of_mem (h : t.Recording) {cs : List Candidate} {c : Candidate}
    (ht : t.entriesAt c.key = []) (hc : c ∈ cs) {v : Value}
    (hv : ∀ c' ∈ cs, c'.key = c.key → c'.source = c.source → c'.value.same v = true) :
    (cs.foldl Tracker.record t).Knows c.key v := by
  have hfirst : (cs.find? (matching c.key c.source)).isSome = true := by
    rw [List.find?_isSome]
    exact ⟨c, hc, matching_iff.mpr ⟨rfl, rfl⟩⟩
  obtain ⟨first, hf⟩ := Option.isSome_iff_exists.mp hfirst
  have hm := matching_iff.mp (List.find?_some hf)
  apply ((h.foldl cs).knows_iff c.key v).mpr
  refine ⟨c.source, { candidate := first }, ?_, ?_⟩
  · rw [entryOf?_foldl, entryOf?, ht, hf]
    rfl
  · exact hv first (List.mem_of_find?_eq_some hf) hm.1 hm.2

/-! ### The end of a pass -/

private theorem get?_foldl_closeLeaf (t : Tracker) {leaves : Keyed Value} (h : Sorted leaves)
    (key : String) :
    Keyed.get? key (leaves.foldl closeLeaf t).histories =
      (Keyed.get? key t.histories).map fun h ↦
        match Keyed.get? key leaves with
        | some v => h.close v
        | none => h := by
  induction leaves generalizing t with
  | nil =>
    change Keyed.get? key t.histories = _
    cases Keyed.get? key t.histories <;> rfl
  | cons e rest ih =>
    obtain ⟨k, v⟩ := e
    rw [List.foldl_cons, ih _ h.tail, closeLeaf]
    by_cases hk : k = key
    · subst hk
      rw [h.get?_tail, Keyed.get?_cons, if_pos rfl]
      dsimp only
      cases hh : Keyed.get? k t.histories with
      | none =>
        dsimp only
        rw [hh]
        rfl
      | some h => simp
    · rw [Keyed.get?_cons, if_neg hk]
      cases Keyed.get? k t.histories with
      | none => rfl
      | some h =>
        dsimp only
        rw [Keyed.get?_insert, if_neg hk]

/-- At the end of a pass exactly the histories of the result's leaves are closed. -/
theorem get?_finalize (t : Tracker) (c : Config) (key : String) :
    Keyed.get? key (t.finalize c).histories =
      (Keyed.get? key t.histories).map fun h ↦
        match Keyed.get? key c.flatten with
        | some v => h.close v
        | none => h :=
  get?_foldl_closeLeaf t (Keyed.sorted_ofList _) key

/-- At the end of a pass a leaf of the result has exactly one used entry, which has its value, if
and only if the tracker knows the value under the key. -/
theorem Recording.finalize_iff (h : t.Recording) {c : Config} {key : String} {v : Value}
    (hv : Keyed.get? key c.flatten = some v) :
    (∃ history, Keyed.get? key (t.finalize c).histories = some history ∧
      ∃ e, history.entries.filter Entry.used = [e] ∧ e.value.same v = true) ↔ t.Knows key v := by
  have hk := h key
  rw [entriesAt] at hk
  rw [get?_finalize, hv, Knows, entriesAt]
  cases hh : Keyed.get? key t.histories with
  | none =>
    rw [hh] at hk
    constructor
    · rintro ⟨history, hn, -⟩
      cases hn
    · rintro ⟨e, he, -⟩
      cases he
  | some history =>
    rw [hh, Option.map_some, Option.getD_some] at hk
    simp only [Option.map_some, Option.some.injEq, exists_eq_left', Option.getD_some]
    exact hk.close_iff v

/-- Candidates of other keys leave the entries under a key as they are. -/
theorem entriesAt_foldl_of_ne (t : Tracker) {cs : List Candidate} {key : String}
    (h : ∀ c ∈ cs, c.key ≠ key) : (cs.foldl Tracker.record t).entriesAt key = t.entriesAt key := by
  induction cs generalizing t with
  | nil => rfl
  | cons c cs ih =>
    rw [List.foldl_cons, ih _ fun c hc ↦ h c (List.mem_cons_of_mem _ hc), entriesAt_record,
      if_neg (h c List.mem_cons_self)]

/-- The candidates of a root key as candidates of a connection. -/
def copies (t : Tracker) (connection key : String) : List Candidate :=
  (t.entriesAt key).map fun e ↦ e.candidate.rekeyed (connectionKey connection key)

/-- Copying the history of a root key is recording its candidates for the connection. -/
theorem replicateKey_eq (t : Tracker) (connection key : String) :
    replicateKey connection t key = (t.copies connection key).foldl Tracker.record t := by
  rw [replicateKey, copies, entriesAt]
  cases Keyed.get? key t.histories with
  | none => rfl
  | some h =>
    rw [Option.map_some, Option.getD_some, List.foldl_map]

/-- Copying the candidates of keys to a connection records each under its new key, as long as these
are none of the keys. -/
theorem replicate_eq (t : Tracker) (connection : String) {keys : List String}
    (h : ∀ k ∈ keys, ∀ k' ∈ keys, connectionKey connection k ≠ k') :
    t.replicate keys connection =
      (keys.flatMap (t.copies connection)).foldl Tracker.record t := by
  rw [replicate]
  induction keys generalizing t with
  | nil => rfl
  | cons key keys ih =>
    have hne : ∀ k ∈ keys, (replicateKey connection t key).copies connection k =
        t.copies connection k := by
      intro k hk
      change ((replicateKey connection t key).entriesAt k).map _ = (t.entriesAt k).map _
      rw [replicateKey_eq, entriesAt_foldl_of_ne]
      intro c hc
      obtain ⟨e, -, rfl⟩ := List.mem_map.mp hc
      exact h key List.mem_cons_self k (List.mem_cons_of_mem _ hk)
    rw [List.foldl_cons, ih _ fun k hk k' hk' ↦ h k (List.mem_cons_of_mem _ hk) k'
      (List.mem_cons_of_mem _ hk'), List.flatMap_cons, List.foldl_append, ← replicateKey_eq]
    congr 1
    exact List.flatMap_congr hne

end Tracker

end LayeredConfig
