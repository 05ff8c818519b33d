import LayeredConfig.Proofs.Candidates

/-!
# Whatever is done to a tracker

A tracker can be told things in any order: an entry may be selected before later candidates come, the
histories may be closed more than once, and a source may have the name of a caller's default. Each
source has one entry at most in every history all the same, one entry at most is used, and only a
reset takes entries away.
-/

namespace LayeredConfig

open Keyed (Sorted)

/-! ### Histories -/

namespace History

/-- What holds of a history at any time. -/
structure Consistent (h : History) : Prop where
  /-- Each source has one entry at most. -/
  distinct : h.sources.Nodup
  /-- One entry at most is used. -/
  once : h.entries.countP Entry.used ≤ 1
  /-- A used entry is not overridden, and then there is a final value. -/
  used : ∀ e ∈ h.entries, e.used = true → e.overriddenBy = none ∧ h.final.isSome = true
  /-- An entry is overridden by a source that has one. -/
  overridden : ∀ e ∈ h.entries, ∀ source, e.overriddenBy = some source → source ∈ h.sources

/-- What an operation on a history keeps: its key, its candidates in their order, and its
consistency. -/
structure Keeps (h h' : History) : Prop where
  key_eq : h'.key = h.key
  candidates : h.entries.map Entry.candidate <+: h'.entries.map Entry.candidate
  consistent : h.Consistent → h'.Consistent

variable {h h' : History} {source : String}

private theorem consistent_new (key : String) : Consistent { key } where
  distinct := List.nodup_nil
  once := Nat.zero_le 1
  used := fun _ he ↦ absurd he List.not_mem_nil
  overridden := fun _ he ↦ absurd he List.not_mem_nil

/-- A history keeps what it has. -/
theorem keeps_refl (h : History) : h.Keeps h := ⟨rfl, List.prefix_rfl, id⟩

/-- Recording keeps a history consistent: the new entry is neither used nor overridden. -/
theorem keeps_record (h : History) (c : Candidate) : h.Keeps (h.record c) := by
  have hentries := entries_record h c
  rw [record] at hentries ⊢
  split
  · exact keeps_refl h
  · next hn =>
    rw [if_neg hn] at hentries
    exact
      { key_eq := rfl
        candidates := by
          rw [List.map_append]
          exact List.prefix_append _ _
        consistent := fun hc ↦
          { distinct := by
              rw [sources, hentries]
              exact nodup_extend hc.distinct c
            once := by
              rw [List.countP_append]
              exact hc.once
            used := by
              intro e he hu
              rcases List.mem_append.mp he with he | he
              · exact hc.used e he hu
              · rw [List.mem_singleton.mp he] at hu
                cases hu
            overridden := by
              intro e he source ho
              rcases List.mem_append.mp he with he | he
              · rw [sources, List.map_append]
                exact List.mem_append_left _ (hc.overridden e he source ho)
              · rw [List.mem_singleton.mp he] at ho
                cases ho } }

/-- Noting that a default filled the key is recording it where there is no candidate. -/
theorem keeps_markDefault (h : History) (v : Value) : h.Keeps (h.markDefault v) := by
  -- whether a default was used matters to nothing that is kept
  have hflag : ∀ h' : History, h.Keeps h' → h.Keeps { h' with defaultUsed := true } := fun _ hk ↦
    ⟨hk.key_eq, hk.candidates, fun hc ↦
      have hc' := hk.consistent hc
      ⟨hc'.distinct, hc'.once, hc'.used, hc'.overridden⟩⟩
  cases he : h.entries with
  | nil =>
    have hm : h.markDefault v =
        { h.record (Candidate.new h.key v defaultSource .overlay) with defaultUsed := true } := by
      rw [markDefault, record, sources, he]
      rfl
    rw [hm]
    exact hflag _ (keeps_record h _)
  | cons e rest =>
    have hm : h.markDefault v = { h with defaultUsed := true } := by
      rw [markDefault, he]
      rfl
    rw [hm]
    exact hflag h (keeps_refl h)

/-- An entry of a source can be selected exactly if there is one. -/
theorem isSome_select (h : History) (source : String) :
    (h.select? source).isSome = true ↔ source ∈ h.sources := by
  rw [select?, Option.isSome_map, List.find?_isSome, sources, List.mem_map]
  simp only [beq_iff_eq]

private theorem map_source_mark (source : String) (entries : List Entry) :
    (entries.map (mark source)).map Entry.source = entries.map Entry.source := by
  rw [List.map_map]
  exact List.map_congr_left fun e _ ↦ congrArg Candidate.source (mark_candidate source e)

private theorem countP_mark {entries : List Entry} (hn : (entries.map Entry.source).Nodup)
    (source : String) : (entries.map (mark source)).countP Entry.used ≤ 1 := by
  have hcount : (entries.map (mark source)).countP Entry.used =
      (entries.map Entry.source).count source := by
    rw [List.countP_map, used_comp_mark, List.count, List.countP_map]
    rfl
  rw [hcount]
  exact List.nodup_iff_count_le_one.mp hn source

/-- Selecting keeps a history consistent: every entry is marked anew. -/
theorem keeps_select (hs : h.select? source = some h') : h.Keeps h' := by
  have hm := (isSome_select h source).mp (by rw [hs]; rfl)
  rw [select?, Option.map_eq_some_iff] at hs
  obtain ⟨winner, -, rfl⟩ := hs
  have hcandidates := map_candidate_mark source h.entries
  have hsources := map_source_mark source h.entries
  exact
    { key_eq := rfl
      candidates := hcandidates ▸ List.prefix_rfl
      consistent := fun hc ↦
        { distinct := by
            rw [sources, hsources]
            exact hc.distinct
          once := countP_mark hc.distinct source
          used := by
            intro e he hu
            obtain ⟨e, -, rfl⟩ := List.mem_map.mp he
            rw [mark, if_pos (beq_iff_eq.mpr ((mark_used source e).mp hu))]
            exact ⟨rfl, rfl⟩
          overridden := by
            intro e he other ho
            obtain ⟨e, -, rfl⟩ := List.mem_map.mp he
            rw [sources, hsources]
            rw [mark] at ho
            split at ho
            · cases ho
            · cases ho
              exact hm } }

private theorem selected_of_select (hs : h.select? source = some h') :
    ∃ e, h'.selected? = some e ∧ e.source = source ∧ h'.final = some e.value := by
  rw [select?, Option.map_eq_some_iff] at hs
  obtain ⟨e, he, rfl⟩ := hs
  refine ⟨mark source e, ?_, ?_, ?_⟩
  · rw [selected?, List.find?_map, used_comp_mark, he]
    rfl
  · have hfound := List.find?_some he
    rw [Entry.source, mark_candidate]
    exact beq_iff_eq.mp hfound
  · exact congrArg (fun c ↦ some c.value) (mark_candidate source e).symm

/-- Closing selects an entry or leaves all entries as they are. -/
theorem keeps_close (h : History) (v : Value) : h.Keeps (h.close v) := by
  rw [close]
  split
  · next winner _ =>
    cases hs : h.select? winner.source with
    | none => exact keeps_refl h
    | some h' => exact keeps_select hs
  · exact
      { key_eq := rfl
        candidates := List.prefix_rfl
        consistent := fun hc ↦
          ⟨hc.distinct, hc.once, fun e he hu ↦ ⟨(hc.used e he hu).1, rfl⟩, hc.overridden⟩ }

end History

/-! ### Trackers -/

namespace Tracker

/-- What holds of a tracker at any time: its histories are under their keys, and consistent. -/
structure Consistent (t : Tracker) : Prop where
  sorted : Sorted t.histories
  history : ∀ key h, Keyed.get? key t.histories = some h → h.key = key ∧ h.Consistent

/-- What an operation on a tracker keeps: its consistency, and all candidates in their order. -/
structure Keeps (t t' : Tracker) : Prop where
  consistent : t.Consistent → t'.Consistent
  candidates : ∀ key, t.candidatesAt key <+: t'.candidatesAt key

variable {t t' : Tracker}

/-- A tracker without histories is consistent. -/
theorem consistent_empty : Consistent {} where
  sorted := Keyed.sorted_nil
  history := fun _ _ h ↦ by cases h

/-- A tracker keeps what it has. -/
theorem keeps_refl (t : Tracker) : t.Keeps t := ⟨id, fun _ ↦ List.prefix_rfl⟩

private theorem Keeps.trans {t'' : Tracker} (h : t.Keeps t') (h' : t'.Keeps t'') : t.Keeps t'' :=
  ⟨h'.consistent ∘ h.consistent, fun key ↦ (h.candidates key).trans (h'.candidates key)⟩

/-- What is kept in each of many steps is kept. -/
theorem keeps_foldl {α : Type} {f : Tracker → α → Tracker} (hf : ∀ t a, Keeps t (f t a))
    (l : List α) (t : Tracker) : t.Keeps (l.foldl f t) := by
  induction l generalizing t with
  | nil => exact keeps_refl t
  | cons a l ih => exact (hf t a).trans (ih (f t a))

/-- What an operation on the history of a key keeps, the tracker keeps. -/
theorem keeps_insert {key : String} {h' : History}
    (hk : ((Keyed.get? key t.histories).getD { key }).Keeps h') :
    t.Keeps ⟨Keyed.insert key h' t.histories⟩ where
  consistent := by
    intro ht
    refine ⟨ht.sorted.insert key h', ?_⟩
    intro k h hh
    rw [Keyed.get?_insert] at hh
    split at hh
    · next he =>
      subst he
      cases hh
      cases hg : Keyed.get? key t.histories with
      | none =>
        rw [hg] at hk
        exact ⟨hk.key_eq, hk.consistent (History.consistent_new key)⟩
      | some h =>
        rw [hg] at hk
        obtain ⟨hkey, hc⟩ := ht.history key h hg
        exact ⟨hk.key_eq.trans hkey, hk.consistent hc⟩
    · exact ht.history k h hh
  candidates := by
    intro k
    rw [candidatesAt, entriesAt, candidatesAt, entriesAt, Keyed.get?_insert]
    split
    · next he =>
      subst he
      cases hg : Keyed.get? key t.histories with
      | none => exact List.nil_prefix
      | some h =>
        rw [hg] at hk
        exact hk.candidates
    · exact List.prefix_rfl

/-! ### What is done to trackers -/

/-- Record a candidate under a key, which need not be its own. -/
def recordUnder (t : Tracker) (key : String) (c : Candidate) : Tracker :=
  t.update key fun h ↦ h.record c

/-- Select a source's entry for a key where there is one, and tell whether there is. -/
def trySelect (t : Tracker) (key source : String) : Bool × Tracker :=
  match t.select? key source with
  | some t' => (true, t')
  | none => (false, t)

/-- Something that is done to a tracker. -/
inductive Action where
  | record (key : String) (c : Candidate)
  | recordTable (data : Table) (source : String) (kind : SourceKind)
  | markDefault (key : String) (v : Value)
  | select (key source : String)
  | replicate (keys : List String) (connection : String)
  | finalize (c : Config)
  | reset

/-- The tracker after one action. -/
def act (t : Tracker) : Action → Tracker
  | .record key c => t.recordUnder key c
  | .recordTable data source kind => t.recordTable data source kind
  | .markDefault key v => t.markDefault key v
  | .select key source => (t.trySelect key source).2
  | .replicate keys connection => t.replicate keys connection
  | .finalize c => t.finalize c
  | .reset => {}

/-- A new tracker after some actions. -/
def after (actions : List Action) : Tracker := actions.foldl act {}

/-- Selecting an entry marks it in the history of its key, or changes nothing. -/
theorem trySelect_cases (t : Tracker) (key source : String) :
    (∃ h h', Keyed.get? key t.histories = some h ∧ h.select? source = some h' ∧
        t.trySelect key source = (true, ⟨Keyed.insert key h' t.histories⟩)) ∨
      (∀ h, Keyed.get? key t.histories = some h → source ∉ h.sources) ∧
        t.trySelect key source = (false, t) := by
  rw [trySelect, select?]
  cases hg : Keyed.get? key t.histories with
  | none => exact Or.inr ⟨fun h hn ↦ (by cases hn), rfl⟩
  | some h =>
    cases hs : h.select? source with
    | none =>
      refine Or.inr ⟨?_, by simp [hs]⟩
      intro h' hh hm
      rw [← Option.some.inj hh, ← History.isSome_select, hs] at hm
      cases hm
    | some h' => exact Or.inl ⟨h, h', rfl, hs, by simp [hs]⟩

/-- Recording under a key keeps all. -/
theorem keeps_recordUnder (t : Tracker) (key : String) (c : Candidate) :
    t.Keeps (t.recordUnder key c) :=
  keeps_insert (History.keeps_record _ c)

/-- So does recording a candidate under its own key. -/
theorem keeps_record (t : Tracker) (c : Candidate) : t.Keeps (t.record c) :=
  keeps_recordUnder t c.key c

/-- So does copying a history. -/
theorem keeps_replicateKey (connection : String) (t : Tracker) (key : String) :
    t.Keeps (replicateKey connection t key) := by
  rw [replicateKey_eq]
  exact keeps_foldl keeps_record _ t

/-- So does closing a history. -/
theorem keeps_closeLeaf (t : Tracker) (leaf : String × Value) : t.Keeps (t.closeLeaf leaf) := by
  rw [closeLeaf]
  split
  · exact keeps_refl t
  · next h hg =>
    apply keeps_insert
    rw [hg]
    exact h.keeps_close leaf.2

/-- So does selecting an entry. -/
theorem keeps_trySelect (t : Tracker) (key source : String) :
    t.Keeps (t.trySelect key source).2 := by
  rcases t.trySelect_cases key source with ⟨h, h', hg, hs, ht⟩ | ⟨-, ht⟩
  · rw [ht]
    apply keeps_insert
    rw [hg]
    exact History.keeps_select hs
  · rw [ht]
    exact keeps_refl t

/-- Every action but a reset keeps all. -/
theorem keeps_act (t : Tracker) {a : Action} (ha : a ≠ .reset) : t.Keeps (t.act a) := by
  cases a with
  | record key c => exact keeps_recordUnder t key c
  | recordTable data source kind => exact keeps_foldl (fun t _ ↦ keeps_record t _) _ t
  | markDefault key v => exact keeps_insert (History.keeps_markDefault _ v)
  | select key source => exact keeps_trySelect t key source
  | replicate keys connection => exact keeps_foldl (keeps_replicateKey connection) keys t
  | finalize c => exact keeps_foldl keeps_closeLeaf c.flatten t
  | reset => exact absurd rfl ha

/-- Every action leaves a consistent tracker. -/
theorem Consistent.act (ht : t.Consistent) (a : Action) : (t.act a).Consistent := by
  by_cases ha : a = .reset
  · subst ha
    exact consistent_empty
  · exact (keeps_act t ha).consistent ht

/-- So do many. -/
theorem consistent_after (actions : List Action) : (after actions).Consistent := by
  have all : ∀ t : Tracker, t.Consistent → (actions.foldl Tracker.act t).Consistent := by
    induction actions with
    | nil => exact fun _ ht ↦ ht
    | cons a actions ih => exact fun t ht ↦ ih (t.act a) (ht.act a)
  exact all {} consistent_empty

/-- Whatever was done to a tracker, its histories are consistent. Nothing but a reset takes away a
candidate, moves or changes one. An entry is selected exactly if the key has one of the source, and
its value is then the final one; otherwise nothing has changed. -/
theorem actions_lawful :
    (∀ actions : List Action, ∀ e ∈ (after actions).histories, e.2.key = e.1 ∧ e.2.Consistent) ∧
      (∀ (t : Tracker) (a : Action), a ≠ .reset → ∀ key,
        t.candidatesAt key <+: (t.act a).candidatesAt key) ∧
      ∀ (t : Tracker) (key source : String),
        ((t.trySelect key source).1 = true ↔
            ∃ h, Keyed.get? key t.histories = some h ∧ source ∈ h.sources) ∧
          ((t.trySelect key source).1 = true →
            ∃ h e, Keyed.get? key (t.trySelect key source).2.histories = some h ∧
              h.selected? = some e ∧ e.source = source ∧ h.final = some e.value) ∧
          ((t.trySelect key source).1 = false → (t.trySelect key source).2 = t) := by
  refine ⟨?_, fun t a ha ↦ (keeps_act t ha).candidates, ?_⟩
  · intro actions e he
    have hc := consistent_after actions
    exact hc.history e.1 e.2 (hc.sorted.mem_iff.mp he)
  · intro t key source
    rcases t.trySelect_cases key source with ⟨h, h', hg, hs, ht⟩ | ⟨hn, ht⟩
    · have hm : source ∈ h.sources := by
        rw [← History.isSome_select, hs]
        rfl
      obtain ⟨e, he⟩ := History.selected_of_select hs
      rw [ht]
      refine ⟨iff_of_true rfl ⟨h, hg, hm⟩, fun _ ↦ ⟨h', e, ?_, he⟩, ?_⟩
      · exact Keyed.get?_insert_self key h' t.histories
      · intro hf
        cases hf
    · rw [ht]
      refine ⟨iff_of_false Bool.false_ne_true ?_, ?_, fun _ ↦ rfl⟩
      · rintro ⟨h, hg, hm⟩
        exact hn h hg hm
      · intro hf
        cases hf

/-- A default is an entry of a source with its name, so a candidate of such a source is none. The
default is selected, and then a result with the value of a file closes the history. -/
theorem actions_lawful_default :
    let c : Candidate := .new "account" (.string "a") "base" .file
    let actions : List Action :=
      [.markDefault "account" (.string "d"), .select "account" "default",
        .record "account" { c with source := "default" }, .record "account" c,
        .finalize { root := [("account", .string "a")] }]
    (∃ h, Keyed.get? "account" (after actions).histories = some h ∧
      h.sources = ["default", "base"] ∧ h.selected?.map Entry.source = some "base" ∧
        h.Consistent) ∧
      (after actions).candidatesAt "account" <+:
        ((after actions).act (.select "account" "env")).candidatesAt "account" ∧
      ((after actions).trySelect "account" "env").2 = after actions := by
  intro c actions
  obtain ⟨hconsistent, hkept, hselect⟩ := actions_lawful
  refine ⟨?_, hkept _ _ (by rintro ⟨⟩) _, (hselect _ "account" "env").2.2 rfl⟩
  obtain ⟨h, hh⟩ : ∃ h, (after actions).histories = [("account", h)] := ⟨_, rfl⟩
  have he := hconsistent actions ("account", h) (hh ▸ List.mem_singleton_self _)
  exact ⟨h, by rw [hh]; rfl, by cases hh; rfl, by cases hh; rfl, he.2⟩

end Tracker

end LayeredConfig
