import LayeredConfig.Proofs.Audit

/-!
# Candidates in a tracker

Following events, a tracker only adds candidates at the end of what it has for a key. Of the
candidates of one source for a key it adds the first. Each candidate was discovered, is a general
parameter in a connection, or copies one of a key that moved to a made-up connection.
-/

namespace LayeredConfig

namespace Tracker

variable {t t' : Tracker} {key : String}

/-- The candidates for a key, in the order in which they were recorded. -/
def candidatesAt (t : Tracker) (key : String) : List Candidate :=
  (t.entriesAt key).map Entry.candidate

/-- The sources of the candidates for a key. -/
def sourcesAt (t : Tracker) (key : String) : List String :=
  (t.candidatesAt key).map Candidate.source

/-- Recording adds a candidate for its key if its source has none there. -/
theorem candidatesAt_record (t : Tracker) (c : Candidate) (key : String) :
    (t.record c).candidatesAt key =
      if c.key = key ∧ c.source ∉ t.sourcesAt key then t.candidatesAt key ++ [c]
      else t.candidatesAt key := by
  have hs : t.sourcesAt key = (t.entriesAt key).map Entry.source := List.map_map
  rw [candidatesAt, entriesAt_record]
  by_cases hk : c.key = key
  · rw [if_pos hk, History.extend, hs]
    by_cases hm : c.source ∈ (t.entriesAt key).map Entry.source
    · rw [if_pos (List.contains_iff_mem.mpr hm), if_neg (fun h ↦ h.2 hm), candidatesAt]
    · rw [if_neg (fun h ↦ hm (List.contains_iff_mem.mp h)), if_pos ⟨hk, hm⟩, List.map_append,
        candidatesAt]
      rfl
  · rw [if_neg hk, if_neg (fun h ↦ hk h.1), candidatesAt]

/-! ### Candidates are added at the end -/

/-- Recording adds at the end. -/
theorem prefix_record (t : Tracker) (c : Candidate) (key : String) :
    t.candidatesAt key <+: (t.record c).candidatesAt key := by
  rw [candidatesAt_record]
  split
  · exact List.prefix_append _ _
  · exact List.prefix_rfl

/-- So does recording many candidates. -/
theorem prefix_foldl (t : Tracker) (cs : List Candidate) (key : String) :
    t.candidatesAt key <+: (cs.foldl record t).candidatesAt key := by
  induction cs generalizing t with
  | nil => exact List.prefix_rfl
  | cons c cs ih => exact (prefix_record t c key).trans (ih _)

/-- So does copying histories. -/
theorem prefix_replicate (t : Tracker) (keys : List String) (connection key : String) :
    t.candidatesAt key <+: (t.replicate keys connection).candidatesAt key := by
  rw [replicate]
  induction keys generalizing t with
  | nil => exact List.prefix_rfl
  | cons field keys ih =>
    rw [List.foldl_cons]
    refine List.IsPrefix.trans ?_ (ih _)
    rw [replicateKey_eq]
    exact prefix_foldl t _ key

private theorem candidates_close (h : History) (v : Value) :
    (h.close v).entries.map Entry.candidate = h.entries.map Entry.candidate := by
  rw [History.close]
  split
  · next winner _ =>
    rw [History.select?]
    cases h.entries.find? fun e ↦ e.source == winner.source with
    | none => rfl
    | some e => exact History.map_candidate_mark winner.source h.entries
  · rfl

/-- The end of a pass changes no candidates. -/
theorem candidatesAt_finalize (t : Tracker) (c : Config) (key : String) :
    (t.finalize c).candidatesAt key = t.candidatesAt key := by
  rw [candidatesAt, entriesAt, get?_finalize, candidatesAt, entriesAt]
  cases Keyed.get? key t.histories with
  | none => rfl
  | some h =>
    cases Keyed.get? key c.flatten with
    | none => rfl
    | some v => exact candidates_close h v

/-- A default becomes a candidate where there is no other. -/
theorem candidatesAt_markDefault (h : t.Going) (k : String) (v : Value) (key : String) :
    (t.markDefault k v).candidatesAt key =
      if k = key ∧ t.candidatesAt key = [] then
        [Candidate.new key v History.defaultSource .overlay]
      else t.candidatesAt key := by
  rw [candidatesAt, entriesAt, markDefault, update, Keyed.get?_insert]
  by_cases hk : k = key
  · subst hk
    rw [if_pos rfl, Option.map_some, Option.getD_some, candidatesAt, entriesAt]
    cases hh : Keyed.get? k t.histories with
    | none =>
      rw [if_pos ⟨rfl, rfl⟩]
      rfl
    | some history =>
      have hkey := (h.pending k history hh).key_eq
      change List.map _ (History.markDefault history v).entries = _
      rw [Option.map_some, Option.getD_some, History.markDefault]
      cases history.entries with
      | nil => simp [hkey]
      | cons e rest => simp
  · rw [if_neg hk, if_neg (fun hn ↦ hk hn.1), candidatesAt, entriesAt]

/-- Whatever happens in a pass after its beginning adds at the end. -/
theorem prefix_observe (h : t.Going) {e : Event} (he : e ≠ .reset) (key : String) :
    t.candidatesAt key <+: (t.observe e).candidatesAt key := by
  cases e with
  | reset => exact absurd rfl he
  | received | sourceFailed => exact List.prefix_rfl
  | discovered c => exact prefix_record t c key
  | broadcast _ c => exact prefix_record t c key
  | synthesized connection keys => exact prefix_replicate t keys connection key
  | defaultUsed k v =>
    change _ <+: (t.markDefault k v).candidatesAt key
    rw [candidatesAt_markDefault h]
    split
    · next hn =>
      rw [hn.2]
      exact List.nil_prefix
    · exact List.prefix_rfl
  | finalized c =>
    have hsame : (t.observe (.finalized c)).candidatesAt key = t.candidatesAt key :=
      candidatesAt_finalize t c key
    exact hsame ▸ List.prefix_rfl

/-- So does all that happens between its beginning and its end. -/
theorem prefix_foldl_observe (h : t.Going) {events : List Event} (hr : Event.reset ∉ events)
    (hf : ∀ e ∈ events, ∀ c, e ≠ .finalized c) (key : String) :
    t.candidatesAt key <+: (events.foldl Tracker.observe t).candidatesAt key := by
  induction events generalizing t with
  | nil => exact List.prefix_rfl
  | cons e events ih =>
    rw [List.mem_cons, not_or] at hr
    rw [List.forall_mem_cons] at hf
    exact (prefix_observe h (Ne.symm hr.1) key).trans (ih (h.observe hf.1) hr.2 hf.2)

/-- While a pass goes on, each source has one candidate at most for a key. -/
theorem Going.nodup_sourcesAt (h : t.Going) (key : String) : (t.sourcesAt key).Nodup := by
  rw [sourcesAt, candidatesAt, entriesAt, List.map_map]
  cases hh : Keyed.get? key t.histories with
  | none => exact List.nodup_nil
  | some history => exact (h.pending key history hh).fresh.nodup

/-- The candidates of sources that all have one already stay as they are. -/
theorem filter_of_prefix (hp : t.candidatesAt key <+: t'.candidatesAt key)
    (hn : (t'.sourcesAt key).Nodup) {p : String → Bool}
    (hs : ∀ source, p source = true → source ∈ t.sourcesAt key) :
    (t'.candidatesAt key).filter (fun c ↦ p c.source) =
      (t.candidatesAt key).filter fun c ↦ p c.source := by
  obtain ⟨added, ha⟩ := hp
  rw [sourcesAt, ← ha, List.map_append, List.nodup_append] at hn
  have hnone : added.filter (fun c ↦ p c.source) = [] := by
    rw [List.filter_eq_nil_iff]
    intro c hc hpc
    exact hn.2.2 _ (hs _ hpc) _ (List.mem_map_of_mem hc) rfl
  rw [← ha, List.filter_append, hnone, List.append_nil]

/-! ### The first candidate of a source -/

private theorem candidatesAt_foldl_of_mem {source : String} (hm : source ∈ t.sourcesAt key)
    {cs : List Candidate} (hs : ∀ c ∈ cs, c.source = source) :
    (cs.foldl record t).candidatesAt key = t.candidatesAt key := by
  induction cs generalizing t with
  | nil => rfl
  | cons c cs ih =>
    rw [List.forall_mem_cons] at hs
    have hc : (t.record c).candidatesAt key = t.candidatesAt key := by
      rw [candidatesAt_record, if_neg]
      rintro ⟨-, hn⟩
      exact hn (hs.1 ▸ hm)
    have hm' : source ∈ (t.record c).sourcesAt key := by rwa [sourcesAt, hc]
    rw [List.foldl_cons, ih hm' hs.2, hc]

/-- Of the candidates of a new source the first one for a key is added. -/
theorem candidatesAt_foldl_of_not_mem {source : String} (hm : source ∉ t.sourcesAt key)
    {cs : List Candidate} (hs : ∀ c ∈ cs, c.source = source) :
    (cs.foldl record t).candidatesAt key =
      t.candidatesAt key ++ (cs.find? (·.key == key)).toList := by
  induction cs generalizing t with
  | nil => exact (List.append_nil _).symm
  | cons c cs ih =>
    rw [List.forall_mem_cons] at hs
    rw [List.foldl_cons, List.find?_cons]
    by_cases hk : c.key = key
    · have hc : (t.record c).candidatesAt key = t.candidatesAt key ++ [c] := by
        rw [candidatesAt_record, if_pos ⟨hk, hs.1 ▸ hm⟩]
      have hm' : source ∈ (t.record c).sourcesAt key := by
        rw [sourcesAt, hc, List.map_append, ← hs.1]
        exact List.mem_append_right _ (List.mem_singleton_self _)
      rw [candidatesAt_foldl_of_mem hm' hs.2, hc, beq_iff_eq.mpr hk]
      rfl
    · have hc : (t.record c).candidatesAt key = t.candidatesAt key := by
        rw [candidatesAt_record, if_neg (fun h ↦ hk h.1)]
      have hm' : source ∉ (t.record c).sourcesAt key := by rwa [sourcesAt, hc]
      rw [ih hm' hs.2, hc, beq_eq_false_iff_ne.mpr hk]

/-! ### Where candidates come from -/

/-- How a candidate for a key came into a tracker that followed some events without a default. -/
inductive Traced (events : List Event) (t : Tracker) : String → Candidate → Prop where
  | discovered {c : Candidate} (he : .discovered c ∈ events) : Traced events t c.key c
  | applied {connection : String} {c : Candidate} (he : .broadcast connection c ∈ events) :
      Traced events t c.key c
  /-- It copies a candidate for a key that moved to a made-up connection. -/
  | copied {connection field : String} {keys : List String} {root : Candidate}
      (he : .synthesized connection keys ∈ events) (hf : field ∈ keys)
      (hr : root ∈ t.candidatesAt field) (ht : Traced events t field root) :
      Traced events t (connectionKey connection field)
        (root.rekeyed (connectionKey connection field))

/-- All candidates of a tracker are traced to some events. -/
def Explained (events : List Event) (t : Tracker) : Prop :=
  ∀ key, ∀ c ∈ t.candidatesAt key, t.Traced events key c

variable {events : List Event}

private theorem explained_empty : Explained [] {} := fun _ _ hc ↦ absurd hc List.not_mem_nil

/-- What is traced stays traced when there are more events and more candidates. -/
theorem Traced.mono {c : Candidate} (h : t.Traced events key c) {later : List Event}
    (he : events ⊆ later) (hp : ∀ key, t.candidatesAt key <+: t'.candidatesAt key) :
    t'.Traced later key c := by
  induction h with
  | discovered hmem => exact .discovered (he hmem)
  | applied hmem => exact .applied (he hmem)
  | copied hmem hf hr _ ih => exact .copied (he hmem) hf ((hp _).subset hr) ih

/-- Recording a candidate that can be traced leaves all of them traced. -/
theorem Explained.record (h : t.Explained events) {c : Candidate}
    (hc : t.Traced events c.key c) : (t.record c).Explained events := by
  intro key d hd
  have hp := prefix_record t c
  rw [candidatesAt_record] at hd
  split at hd
  · next hk =>
    rcases List.mem_append.mp hd with hd | hd
    · exact (h key d hd).mono (List.Subset.refl _) hp
    · obtain rfl := List.mem_singleton.mp hd
      exact (hk.1 ▸ hc).mono (List.Subset.refl _) hp
  · exact (h key d hd).mono (List.Subset.refl _) hp

private theorem Explained.foldl (h : t.Explained events) {cs : List Candidate}
    (hc : ∀ c ∈ cs, t.Traced events c.key c) : (cs.foldl Tracker.record t).Explained events := by
  induction cs generalizing t with
  | nil => exact h
  | cons c cs ih =>
    rw [List.forall_mem_cons] at hc
    apply ih (h.record hc.1)
    intro d hd
    exact (hc.2 d hd).mono (List.Subset.refl _) (prefix_record t c)

private theorem Explained.replicate (h : t.Explained events) {connection : String}
    {keys : List String} (he : .synthesized connection keys ∈ events) :
    (t.replicate keys connection).Explained events := by
  -- the induction is on the keys still to be copied; the event names all of them
  have all : ∀ fields ⊆ keys, ∀ t : Tracker, t.Explained events →
      (t.replicate fields connection).Explained events := by
    intro fields
    induction fields with
    | nil => exact fun _ _ h ↦ h
    | cons field fields ih =>
      intro hsub t h
      obtain ⟨hf, hsub⟩ := List.cons_subset.mp hsub
      apply ih hsub
      rw [replicateKey_eq]
      apply h.foldl
      intro c hc
      obtain ⟨e, hmem, rfl⟩ := List.mem_map.mp hc
      have hr : e.candidate ∈ t.candidatesAt field := List.mem_map_of_mem hmem
      exact .copied he hf hr (h field _ hr)
  exact all keys (List.Subset.refl _) t h

/-- One more event that is no default leaves all candidates traced. -/
theorem Explained.observe (h : t.Explained events) (hg : t.Going) {e : Event}
    (he : ∀ k v, e ≠ .defaultUsed k v) : (t.observe e).Explained (events ++ [e]) := by
  have hmem : e ∈ events ++ [e] := List.mem_concat_self
  have hmore : t.Explained (events ++ [e]) := fun key c hc ↦
    (h key c hc).mono (List.subset_append_left _ _) fun _ ↦ List.prefix_rfl
  cases e with
  | reset => exact fun _ _ hc ↦ absurd hc List.not_mem_nil
  | received | sourceFailed => exact hmore
  | discovered c => exact hmore.record (.discovered hmem)
  | broadcast _ c => exact hmore.record (.applied hmem)
  | synthesized connection keys => exact hmore.replicate hmem
  | defaultUsed k v => exact absurd rfl (he k v)
  | finalized c =>
    intro key d hd
    change d ∈ (t.finalize c).candidatesAt key at hd
    rw [candidatesAt_finalize] at hd
    apply (hmore key d hd).mono (List.Subset.refl _)
    exact fun key ↦ prefix_observe hg (fun hr ↦ by cases hr) key

/-- All candidates of a tracker that followed events without a default are traced to these. -/
theorem explained_foldl (hd : ∀ e ∈ events, ∀ k v, e ≠ .defaultUsed k v)
    (hf : ∀ e ∈ events, ∀ c, e ≠ .finalized c) :
    (events.foldl Tracker.observe {}).Explained events := by
  -- from the last event back: what is traced grows at the end, as the tracker does
  induction events using List.reverseRecOn with
  | nil => exact explained_empty
  | append_singleton events e ih =>
    simp only [List.forall_mem_append, List.forall_mem_singleton] at hd hf
    rw [List.foldl_append]
    exact (ih hd.1 hf.1).observe (going_empty.foldl_observe hf.1) hd.2

end Tracker

end LayeredConfig
