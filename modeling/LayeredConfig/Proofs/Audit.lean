import LayeredConfig.Proofs.Runs
import Mathlib.Algebra.Ring.Nat
import Mathlib.Data.Option.Defs

/-!
# The audit trail

While a pass goes on every history has one entry for each source, none of them used, and no final
value. At its end the histories of the result's leaves are closed, and no others. So a trail says of
each key what the result says, and its totals count what the result has.
-/

namespace LayeredConfig

open Keyed (Sorted)

/-! ### Values that are the same -/

private theorem Decimal.Bits.same_congr {a b : Decimal.Bits} (h : a.same b = true)
    (c : Decimal.Bits) : a.same c = b.same c := by
  rcases Bool.or_eq_true_iff.mp h with he | hz
  · obtain rfl := beq_iff_eq.mp he
    rfl
  · obtain ⟨ha, hb⟩ := Bool.and_eq_true_iff.mp hz
    simp only [same, ha, hb, Bool.true_and]
    cases hc : c.isZero with
    | true => simp
    | false =>
      have hac : a ≠ c := by
        rintro rfl
        rw [ha] at hc
        cases hc
      have hbc : b ≠ c := by
        rintro rfl
        rw [hb] at hc
        cases hc
      simp [hac, hbc]

mutual

/-- Values that are the same are the same as the same values. -/
theorem Value.same_congr : ∀ {a b : Value}, a.same b = true → ∀ c, a.same c = b.same c
  | .null, b, h, c => by
    cases b with
    | null => rfl
    | _ => cases h
  | .bool x, b, h, c => by
    cases b with
    | bool y =>
      obtain rfl : x = y := beq_iff_eq.mp h
      rfl
    | _ => cases h
  | .int x, b, h, c => by
    cases b with
    | int y =>
      obtain rfl : x = y := beq_iff_eq.mp h
      rfl
    | _ => cases h
  | .float x, b, h, c => by
    cases b with
    | float y =>
      cases c with
      | float z => exact Decimal.Bits.same_congr h z
      | _ => rfl
    | _ => cases h
  | .string x, b, h, c => by
    cases b with
    | string y =>
      obtain rfl : x = y := beq_iff_eq.mp h
      rfl
    | _ => cases h
  | .array as, b, h, c => by
    cases b with
    | array bs =>
      cases c with
      | array cs => exact Value.sameItems_congr h cs
      | _ => rfl
    | _ => cases h
  | .table as, b, h, c => by
    cases b with
    | table bs =>
      cases c with
      | table cs => exact Value.sameEntries_congr h cs
      | _ => rfl
    | _ => cases h

private theorem Value.sameItems_congr : ∀ {as bs : List Value}, Value.sameItems as bs = true →
    ∀ cs, Value.sameItems as cs = Value.sameItems bs cs
  | [], bs, h, cs => by
    cases bs with
    | nil => rfl
    | cons b bs => cases h
  | a :: as, bs, h, cs => by
    cases bs with
    | nil => cases h
    | cons b bs =>
      cases cs with
      | nil => rfl
      | cons c cs =>
        obtain ⟨ha, has⟩ := Bool.and_eq_true_iff.mp h
        rw [sameItems, sameItems, Value.same_congr ha c, Value.sameItems_congr has cs]

private theorem Value.sameEntries_congr :
    ∀ {as bs : List (String × Value)}, Value.sameEntries as bs = true →
      ∀ cs, Value.sameEntries as cs = Value.sameEntries bs cs
  | [], bs, h, cs => by
    cases bs with
    | nil => rfl
    | cons b bs => cases h
  | (k, a) :: as, bs, h, cs => by
    cases bs with
    | nil => cases h
    | cons e bs =>
      obtain ⟨l, b⟩ := e
      cases cs with
      | nil => rfl
      | cons e' cs =>
        obtain ⟨hka, has⟩ := Bool.and_eq_true_iff.mp h
        obtain ⟨hk, ha⟩ := Bool.and_eq_true_iff.mp hka
        obtain rfl : k = l := beq_iff_eq.mp hk
        rw [sameEntries, sameEntries, Value.same_congr ha e'.2, Value.sameEntries_congr has cs]

end

private theorem Value.same_symm {a b : Value} (h : a.same b = true) : b.same a = true := by
  rw [← same_congr h, same_self]

private theorem Value.same_congr_right {a b : Value} (h : a.same b = true) (c : Value) :
    c.same a = c.same b := by
  rw [Bool.eq_iff_iff]
  constructor
  · intro hc
    rw [same_congr hc, h]
  · intro hc
    rw [same_congr hc, same_symm h]

/-! ### Histories -/

namespace History

/-- A history while a pass goes on: all is under its key, each source has one entry at most, none of
them used or overridden, and there is no final value. -/
structure Pending (key : String) (h : History) : Prop where
  key_eq : h.key = key
  keys : ∀ e ∈ h.entries, e.candidate.key = key
  fresh : Fresh h.entries
  alone : ∀ e ∈ h.entries, e.overriddenBy = none
  final : h.final = none

/-- A history at the end of a pass, by the leaf that the result has under its key, if it has one. -/
structure Closed (key : String) (leaf : Option Value) (h : History) : Prop where
  key_eq : h.key = key
  keys : ∀ e ∈ h.entries, e.candidate.key = key
  /-- There is a final value exactly if there is a leaf, and the two are the same. -/
  final : Option.Rel (fun x v ↦ x.same v = true) h.final leaf
  /-- It is the value of the used entry, or else the leaf itself. -/
  final_eq : h.final = (h.selected?.map Entry.value).or leaf
  /-- The used entry is the last one with the final value. -/
  used : ∀ before e after, h.entries = before ++ e :: after →
    (e.used = true ↔ ∃ x, h.final = some x ∧ e.value.same x = true ∧
      ∀ e' ∈ after, e'.value.same x = false)
  once : h.entries.countP Entry.used ≤ 1
  /-- The others are overridden by it; without it none is. -/
  overridden : ∀ e ∈ h.entries, e.used = false → e.overriddenBy = h.selected?.map Entry.source

variable {h : History} {key : String}

/-- A closed history has a final value exactly if there is a leaf. -/
theorem Closed.isSome_final {leaf : Option Value} (hc : Closed key leaf h) :
    h.final.isSome = leaf.isSome := by
  have hfinal := hc.final
  generalize h.final = final at hfinal ⊢
  cases hfinal <;> rfl

private theorem pending_new (key : String) : Pending key { key } where
  key_eq := rfl
  keys := fun _ he ↦ absurd he List.not_mem_nil
  fresh := ⟨List.nodup_nil, fun _ he ↦ absurd he List.not_mem_nil⟩
  alone := fun _ he ↦ absurd he List.not_mem_nil
  final := rfl

private theorem mem_extend {entries : List Entry} {c : Candidate} {e : Entry}
    (he : e ∈ extend entries c) : e ∈ entries ∨ e = { candidate := c } := by
  rw [extend] at he
  split at he
  · exact Or.inl he
  · simpa using he

private theorem Pending.record (hp : Pending key h) {c : Candidate} (hc : c.key = key) :
    Pending key (h.record c) where
  key_eq := by
    rw [History.record]
    split <;> exact hp.key_eq
  keys := by
    intro e he
    rw [entries_record] at he
    rcases mem_extend he with he | rfl
    · exact hp.keys e he
    · exact hc
  fresh := by
    rw [entries_record]
    exact hp.fresh.extend c
  alone := by
    intro e he
    rw [entries_record] at he
    rcases mem_extend he with he | rfl
    · exact hp.alone e he
    · rfl
  final := by
    rw [History.record]
    split <;> exact hp.final

private theorem Pending.markDefault (hp : Pending key h) (v : Value) :
    Pending key (h.markDefault v) := by
  cases he : h.entries with
  | nil =>
    have hm : h.markDefault v =
        { h with
          entries := [{ candidate := Candidate.new h.key v defaultSource .overlay }]
          defaultUsed := true } := by
      rw [History.markDefault, he]
      rfl
    rw [hm]
    exact
      { key_eq := hp.key_eq
        keys := by
          intro e he
          rw [List.mem_singleton.mp he]
          exact hp.key_eq
        fresh := ⟨List.nodup_singleton _, by simp⟩
        alone := by simp
        final := hp.final }
  | cons e rest =>
    have hm : h.markDefault v = { h with defaultUsed := true } := by
      rw [History.markDefault, he]
      rfl
    rw [hm]
    exact ⟨hp.key_eq, hp.keys, hp.fresh, hp.alone, hp.final⟩

/-- In a pending history no entry is the selected one. -/
theorem Pending.selected?_eq_none (hp : Pending key h) : h.selected? = none := by
  rw [selected?, ← List.head?_filter, hp.fresh.filter_used]
  rfl

/-- Without a leaf a history stays as it is. -/
theorem Pending.closed_none (hp : Pending key h) : Closed key none h where
  key_eq := hp.key_eq
  keys := hp.keys
  final := by
    rw [hp.final]
    exact .none
  final_eq := by
    rw [hp.final, hp.selected?_eq_none]
    rfl
  used := by
    intro before e after hs
    have he : e ∈ h.entries := by
      rw [hs]
      simp
    simp [hp.fresh.unused e he, hp.final]
  once := by
    rw [List.countP_eq_length_filter, hp.fresh.filter_used]
    exact Nat.zero_le 1
  overridden := by
    intro e he _
    rw [hp.alone e he, hp.selected?_eq_none]
    rfl

/-- Among entries of different sources, the last one of a kind is told by its source. -/
theorem Fresh.source_eq_last_iff {entries before after : List Entry} (hf : Fresh entries)
    {p : Entry → Bool} {last e : Entry} (hl : entries.reverse.find? p = some last)
    (hs : entries = before ++ e :: after) :
    e.source = last.source ↔ p e = true ∧ ∀ e' ∈ after, p e' = false := by
  have hm : last ∈ entries := List.mem_reverse.mp (List.mem_of_find?_eq_some hl)
  have he : e ∈ entries := by
    rw [hs]
    simp
  have hreverse : entries.reverse = after.reverse ++ e :: before.reverse := by
    rw [hs]
    simp
  constructor
  · intro hsource
    have hsame : e = last := by
      have hfind := hf.find?_source he
      rw [hsource, hf.find?_source hm] at hfind
      exact (Option.some.inj hfind).symm
    subst hsame
    refine ⟨List.find?_some hl, ?_⟩
    intro e' he'
    rw [Bool.eq_false_iff]
    intro hp
    -- What is found behind `e` would be of the same source.
    obtain ⟨found, hfound⟩ := Option.isSome_iff_exists.mp
      (List.find?_isSome.mpr ⟨e', List.mem_reverse.mpr he', hp⟩)
    have hfirst : entries.reverse.find? p = some found := by
      rw [hreverse, List.find?_append, hfound, Option.some_or]
    obtain rfl := Option.some.inj (hfirst.symm.trans hl)
    have hlater : found ∈ after := List.mem_reverse.mp (List.mem_of_find?_eq_some hfound)
    have hn := hf.nodup
    rw [hs, List.map_append, List.map_cons] at hn
    exact (List.nodup_cons.mp (List.nodup_append.mp hn).2.1).1 (List.mem_map_of_mem hlater)
  · rintro ⟨hp, hafter⟩
    have hnone : after.reverse.find? p = none := by
      rw [List.find?_eq_none]
      intro e' he'
      rw [hafter e' (List.mem_reverse.mp he')]
      exact Bool.false_ne_true
    rw [hreverse, List.find?_append, hnone, Option.none_or, List.find?_cons, hp] at hl
    rw [Option.some.inj hl]

/-- Marking an entry changes neither its source nor its value. -/
theorem mark_candidate (source : String) (e : Entry) : (mark source e).candidate = e.candidate := by
  rw [mark]
  split <;> rfl

/-- Marking entries changes none of their candidates. -/
theorem map_candidate_mark (source : String) (entries : List Entry) :
    (entries.map (mark source)).map Entry.candidate = entries.map Entry.candidate := by
  rw [List.map_map]
  exact List.map_congr_left fun e _ ↦ mark_candidate source e

/-- The entry of the marked source is used. -/
theorem mark_used (source : String) (e : Entry) :
    (mark source e).used = true ↔ e.source = source := by
  rw [mark]
  split
  · next h => exact iff_of_true rfl (beq_iff_eq.mp h)
  · next h => exact iff_of_false Bool.false_ne_true fun hs ↦ h (beq_iff_eq.mpr hs)

private theorem mark_overriddenBy {source : String} {e : Entry} (h : (mark source e).used = false) :
    (mark source e).overriddenBy = some source := by
  rw [mark] at h ⊢
  split
  · next hs =>
    rw [if_pos hs] at h
    cases h
  · rfl

private theorem Pending.closed_some (hp : Pending key h) (v : Value) :
    Closed key (some v) (h.close v) := by
  rw [close]
  cases hl : h.entries.reverse.find? fun e ↦ e.value.same v with
  | none =>
    have hnone : ∀ e ∈ h.entries, e.value.same v = false := by
      intro e he
      rw [Bool.eq_false_iff]
      exact List.find?_eq_none.mp hl e (List.mem_reverse.mpr he)
    have hopen := hp.closed_none
    refine
      { key_eq := hp.key_eq
        keys := hp.keys
        final := .some v.same_self
        final_eq := ?_
        used := ?_
        once := hopen.once
        overridden := hopen.overridden }
    · change some v = (h.selected?.map Entry.value).or (some v)
      rw [hp.selected?_eq_none]
      rfl
    · intro before e after hs
      have he : e ∈ h.entries := by
        rw [show h.entries = before ++ e :: after from hs]
        simp
      simp [hp.fresh.unused e he, hnone e he]
  | some last =>
    have hm : last ∈ h.entries := List.mem_reverse.mp (List.mem_of_find?_eq_some hl)
    have hv : last.value.same v = true := by
      have hfound := List.find?_some hl
      exact hfound
    have hfilter := hp.fresh.used_select hm
    dsimp only
    rw [hp.fresh.select_eq hm] at hfilter ⊢
    have hselected : selected? { h with
        entries := h.entries.map (mark last.source), final := some last.value } =
          some (mark last.source last) := by
      rw [selected?, ← List.head?_filter, hfilter]
      rfl
    refine
      { key_eq := hp.key_eq
        keys := ?_
        final := .some hv
        final_eq := ?_
        used := ?_
        once := ?_
        overridden := ?_ }
    · intro e he
      obtain ⟨e₀, he₀, rfl⟩ := List.mem_map.mp he
      rw [mark_candidate]
      exact hp.keys e₀ he₀
    · rw [hselected]
      simp [Entry.value, mark_candidate]
    · intro before e after hs
      obtain ⟨before₀, rest₀, hs₀, rfl, hrest⟩ := List.map_eq_append_iff.mp hs
      obtain ⟨e₀, after₀, rfl, rfl, rfl⟩ := List.map_eq_cons_iff.mp hrest
      have hvalue : ∀ e : Entry, (mark last.source e).value.same last.value = e.value.same v := by
        intro e
        rw [Entry.value, mark_candidate, Value.same_congr_right hv]
        rfl
      rw [mark_used, hp.fresh.source_eq_last_iff hl hs₀]
      simp only [Option.some.injEq, exists_eq_left', hvalue, List.forall_mem_map]
    · rw [List.countP_eq_length_filter, hfilter]
      exact Nat.le_refl 1
    · intro e he hu
      obtain ⟨e₀, -, rfl⟩ := List.mem_map.mp he
      rw [mark_overriddenBy hu, hselected]
      simp [Entry.source, mark_candidate]

end History

/-! ### Trackers -/

namespace Tracker

open History (Pending Closed)

/-- A tracker while a pass goes on. -/
structure Going (t : Tracker) : Prop where
  sorted : Sorted t.histories
  pending : ∀ key h, Keyed.get? key t.histories = some h → Pending key h

variable {t : Tracker}

/-- A pass begins without histories. -/
theorem going_empty : Going {} where
  sorted := Keyed.sorted_nil
  pending := by
    intro key h hh
    cases hh

/-- Changing one history so that it stays pending leaves the others as they are. -/
theorem Going.update (h : t.Going) {key : String} {f : History → History}
    (hf : ∀ history, Pending key history → Pending key (f history)) : (t.update key f).Going where
  sorted := h.sorted.insert _ _
  pending := by
    intro key' history hh
    rw [Tracker.update, Keyed.get?_insert] at hh
    split at hh
    · next hk =>
      subst hk
      obtain rfl := Option.some.inj hh
      apply hf
      cases hold : Keyed.get? key t.histories with
      | none => exact History.pending_new key
      | some history => exact h.pending key history hold
    · exact h.pending key' history hh

/-- Recording goes on. -/
theorem Going.record (h : t.Going) (c : Candidate) : (t.record c).Going :=
  h.update fun _ hp ↦ hp.record rfl

/-- Recording many candidates goes on. -/
theorem Going.foldl (h : t.Going) (cs : List Candidate) : (cs.foldl Tracker.record t).Going := by
  induction cs generalizing t with
  | nil => exact h
  | cons c cs ih => exact ih (h.record c)

/-- Copying histories goes on. -/
theorem Going.replicate (h : t.Going) (keys : List String) (connection : String) :
    (t.replicate keys connection).Going := by
  rw [Tracker.replicate]
  induction keys generalizing t with
  | nil => exact h
  | cons key keys ih =>
    rw [List.foldl_cons, replicateKey_eq]
    exact ih (h.foldl _)

/-- Whatever happens before the end of a pass goes on. -/
theorem Going.observe (h : t.Going) {e : Event} (he : ∀ c, e ≠ .finalized c) :
    (t.observe e).Going := by
  cases e with
  | reset => exact going_empty
  | received | sourceFailed => exact h
  | discovered c => exact h.record c
  | broadcast _ c => exact h.record c
  | synthesized connection keys => exact h.replicate keys connection
  | defaultUsed key v => exact h.update fun _ hp ↦ hp.markDefault v
  | finalized c => exact absurd rfl (he c)

/-- So does all of it. -/
theorem Going.foldl_observe (h : t.Going) {events : List Event}
    (he : ∀ e ∈ events, ∀ c, e ≠ .finalized c) : (events.foldl Tracker.observe t).Going := by
  induction events generalizing t with
  | nil => exact h
  | cons e events ih =>
    rw [List.forall_mem_cons] at he
    exact ih (h.observe he.1) he.2

/-- At the end every history is closed by the leaf under its key. -/
theorem Going.closed_finalize (h : t.Going) (c : Config) {key : String} {history : History}
    (hh : Keyed.get? key (t.finalize c).histories = some history) :
    Closed key (Keyed.get? key c.flatten) history := by
  rw [get?_finalize, Option.map_eq_some_iff] at hh
  obtain ⟨before, hb, rfl⟩ := hh
  have hp := h.pending key before hb
  cases Keyed.get? key c.flatten with
  | none => exact hp.closed_none
  | some v => exact hp.closed_some v

/-- Closing histories keeps them in order. -/
theorem Going.sorted_finalize (h : t.Going) (c : Config) : Sorted (t.finalize c).histories := by
  have all : ∀ (leaves : List (String × Value)) (t : Tracker), Sorted t.histories →
      Sorted (leaves.foldl closeLeaf t).histories := by
    intro leaves
    induction leaves with
    | nil => exact fun _ hs ↦ hs
    | cons leaf leaves ih =>
      intro t hs
      apply ih
      rw [closeLeaf]
      split
      · exact hs
      · exact hs.insert _ _
  exact all _ t h.sorted

/-! ### Totals -/

private theorem sum_insert_wins {wins : Keyed Nat} (h : Sorted wins) (source : String) :
    ((Keyed.insert source ((Keyed.get? source wins).getD 0 + 1) wins).map Prod.snd).sum =
      (wins.map Prod.snd).sum + 1 := by
  induction wins with
  | nil => rfl
  | cons e rest ih =>
    obtain ⟨k, n⟩ := e
    have ih := ih h.tail
    simp only [Keyed.insert, Keyed.get?_cons]
    by_cases hk : k = source
    · subst hk
      simp [Nat.add_right_comm]
    · rw [if_neg hk]
      split
      · next hlt =>
        have hnone : Keyed.get? source rest = none := by
          apply Keyed.get?_eq_none
          intro e he
          exact (String.ne_of_lt (lt_trans hlt ((List.pairwise_cons.mp h).1 e he))).symm
        rw [hnone]
        simp [Nat.add_comm]
      · simp only [List.map_cons, List.sum_cons]
        omega

/-- Keys are resolved where there is a final value. -/
theorem resolved_foldl (histories : Keyed History) (s : Summary) :
    (histories.foldl (fun s e ↦ s.count e.2) s).resolved =
      s.resolved + histories.countP fun e ↦ e.2.final.isSome := by
  induction histories generalizing s with
  | nil => rfl
  | cons e rest ih =>
    rw [List.foldl_cons, ih, List.countP_cons, Summary.count]
    cases e.2.final.isSome with
    | false => rfl
    | true =>
      simp only [Bool.toNat_true, if_pos]
      omega

private theorem wins_foldl (histories : Keyed History) {s : Summary} (h : Sorted s.wins) :
    ((histories.foldl (fun s e ↦ s.count e.2) s).wins.map Prod.snd).sum =
      (s.wins.map Prod.snd).sum + histories.countP fun e ↦ e.2.entries.any Entry.used := by
  induction histories generalizing s with
  | nil => rfl
  | cons e rest ih =>
    have hany : e.2.selected?.isSome = e.2.entries.any Entry.used := by
      rw [Bool.eq_iff_iff, History.selected?, List.find?_isSome, List.any_eq_true]
    rw [List.foldl_cons, List.countP_cons, ← hany]
    cases hsel : e.2.selected? with
    | none =>
      have hwins : (s.count e.2).wins = s.wins := by
        rw [Summary.count, hsel]
      rw [ih (by rwa [hwins]), hwins]
      rfl
    | some winner =>
      have hwins : (s.count e.2).wins = Keyed.insert winner.source
          ((Keyed.get? winner.source s.wins).getD 0 + 1) s.wins := by
        rw [Summary.count, hsel]
      rw [ih (by rw [hwins]; exact h.insert _ _), hwins, sum_insert_wins h]
      simp only [Option.isSome_some, if_pos]
      omega

end Tracker

/-! ### The end of a pass -/

private theorem Pass.exists_events_of_ok {reports : List Report} {key : Option String}
    {default : Option Value} {c : Config} (h : (run reports key default).result = .ok c) :
    ∃ body, (run reports key default).events = .reset :: (body ++ [.finalized c]) ∧
      ∀ e ∈ body, ∀ c', e ≠ .finalized c' := by
  obtain ⟨closing, hclosing, ⟨e, hr, -⟩ | ⟨c', hr, he⟩⟩ := run_cases reports key default
  · rw [hr] at h
    cases h
  · obtain rfl := Except.ok.inj (hr.symm.trans h)
    refine ⟨(merge {} reports).events ++ closing, by rw [he, List.append_assoc], ?_⟩
    rintro e he c'' rfl
    rcases List.mem_append.mp he with he | he
    · exact reporting_merge _ _ _ he
    · exact hclosing _ he

namespace Resolver

/-- After a resolution the audit trail agrees with the result. Every history is closed by the leaf
that the result has under its key, and the totals count the keys that are leaves and the histories
with a used entry. -/
theorem resolve_audited {r : Resolver} {w : World} {key : Option String} {default : Option Value}
    {c : Config} {tracker : Tracker} (hc : (r.resolve w key default).1 = .ok c)
    (ht : (r.resolve w key default).2.observers.history = some tracker) :
    Sorted tracker.histories ∧
      (∀ k history, Keyed.get? k tracker.histories = some history →
        history.Closed k (Keyed.get? k c.flatten)) ∧
      tracker.summary.resolved =
        tracker.histories.countP (fun e ↦ Keyed.contains e.1 c.flatten) ∧
      (tracker.summary.wins.map Prod.snd).sum =
        tracker.histories.countP fun e ↦ e.2.entries.any Entry.used := by
  obtain ⟨body, hevents, hbody⟩ :
      ∃ body, r.events w key default = .reset :: (body ++ [.finalized c]) ∧
        ∀ e ∈ body, ∀ c', e ≠ .finalized c' := Pass.exists_events_of_ok hc
  rw [observers_resolve, Observers.history_notifyAll, hevents] at ht
  obtain ⟨first, -, htracker⟩ := Option.map_eq_some_iff.mp ht
  have hgoing := Tracker.going_empty.foldl_observe hbody
  obtain rfl : (body.foldl Tracker.observe {}).finalize c = tracker := by
    rw [← htracker, List.foldl_cons, List.foldl_append]
    rfl
  have hsorted := hgoing.sorted_finalize c
  have hclosed : ∀ k history,
      Keyed.get? k ((body.foldl Tracker.observe {}).finalize c).histories = some history →
        history.Closed k (Keyed.get? k c.flatten) :=
    fun _ _ hh ↦ hgoing.closed_finalize c hh
  refine ⟨hsorted, hclosed, ?_, ?_⟩
  · rw [Tracker.summary, Tracker.resolved_foldl, Nat.zero_add]
    apply List.countP_congr
    rintro ⟨k, history⟩ he
    have hfinal := (hclosed k history (hsorted.mem_iff.mp he)).isSome_final
    rw [Keyed.contains, hfinal]
  · rw [Tracker.summary, Tracker.wins_foldl _ Keyed.sorted_nil]
    exact Nat.zero_add _

/-- A file's theme that an overlay of the same name replaces moves to the default connection. The
histories have the file's value only, so no entry supplied the leaf. -/
theorem resolve_audited_theme :
    ∃ tracker history, ({ ofTables
          [("base", .file, [("theme", .string "dark")]),
            ("base", .overlay, [("theme", .string "light")])] with
          observers := { history := some {} } }.resolve {} none none).2.observers.history =
        some tracker ∧
      Keyed.get? "connections.default.theme" tracker.histories = some history ∧
      history.Closed "connections.default.theme" (some (.string "light")) ∧
      tracker.summary.resolved = 1 ∧ (tracker.summary.wins.map Prod.snd).sum = 0 := by
  refine ⟨_, _, rfl, rfl, ?_⟩
  have hc : ({ ofTables
      [("base", .file, [("theme", .string "dark")]),
        ("base", .overlay, [("theme", .string "light")])] with
      observers := { history := some {} } }.resolve {} none none).1 = .ok _ := rfl
  obtain ⟨-, hclosed, hresolved, hwins⟩ := resolve_audited hc rfl
  exact ⟨hclosed "connections.default.theme" _ rfl, hresolved, hwins⟩

end Resolver

end LayeredConfig
