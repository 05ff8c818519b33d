import LayeredConfig.History.Export
import LayeredConfig.Proofs.Provenance
import LayeredConfig.Secret.Mask

/-!
# What is shown of secrets

A value exposes a secret if a table somewhere in it has one in clear under the name of a secret.
Masking goes through tables but not into arrays, so a masked table exposes what an array does that is
not itself under the name of a secret. An export hides values by the key of their history. What it
exposes nonetheless is in arrays too, or in a table that a caller gave as default for a key that names
no secret.
-/

namespace LayeredConfig

open Keyed (Sorted get?)

/-! ### Values in values -/

namespace Value

/-- Whether a table somewhere in a value has a value in clear under the name of a secret. -/
inductive Exposes (clear : Value → Prop) : Value → Prop where
  | here {entries : List (String × Value)} {key : String} {x : Value} (he : (key, x) ∈ entries)
      (hk : Parameter.isSensitive key = true) (hx : clear x) : Exposes clear (.table entries)
  | entry {entries : List (String × Value)} {key : String} {x : Value} (he : (key, x) ∈ entries)
      (h : Exposes clear x) : Exposes clear (.table entries)
  | item {items : List Value} {x : Value} (hi : x ∈ items) (h : Exposes clear x) :
      Exposes clear (.array items)

/-- A value that masking would replace under the name of a secret. -/
def InClear (v : Value) : Prop := v ≠ .null ∧ v.isTable = false ∧ v ≠ .string Secret.mask

variable {clear : Value → Prop} {v : Value}

/-- Among leaves only arrays expose anything. -/
theorem Exposes.exists_items (h : v.Exposes clear) (hv : v.isLeaf = true) :
    ∃ items, v = .array items := by
  cases v with
  | array items => exact ⟨items, rfl⟩
  | table entries =>
    cases entries with
    | nil => cases h <;> contradiction
    | cons => cases hv
  | _ => cases h

end Value

/-! ### Masked tables -/

namespace Secret

/-- Whether a table has an array that exposes a secret, under a key that names none, at a depth that
is reached through tables only. -/
inductive Unreached (clear : Value → Prop) : List (String × Value) → Prop where
  | array {entries : List (String × Value)} {key : String} {items : List Value}
      (he : (key, .array items) ∈ entries) (hk : Parameter.isSensitive key = false)
      (h : (Value.array items).Exposes clear) : Unreached clear entries
  | table {entries inner : List (String × Value)} {key : String}
      (he : (key, .table inner) ∈ entries) (h : Unreached clear inner) : Unreached clear entries

private theorem masked_eq (entries : List (String × Value)) :
    masked entries = entries.map fun e ↦ (e.1, shown e.1 e.2) := by
  induction entries with
  | nil => rw [masked]; rfl
  | cons e rest ih =>
    obtain ⟨k, v⟩ := e
    rw [masked, ih]
    rfl

/-- A value that is no table is shown as it is, or masked if it is under the name of a secret and not
null. -/
theorem shown_of_not_table (key : String) {v : Value} (hv : v.isTable = false) :
    shown key v = v ∧ (v = .null ∨ Parameter.isSensitive key = false) ∨
      shown key v = .string mask := by
  cases v with
  | null => exact Or.inl ⟨rfl, Or.inl rfl⟩
  | table entries => cases hv
  | _ =>
    cases hk : Parameter.isSensitive key with
    | true => exact Or.inr (if_pos hk)
    | false => exact Or.inl ⟨if_neg (fun h ↦ Bool.false_ne_true (hk.symm.trans h)), Or.inr rfl⟩

private theorem not_inClear_shown {key : String} (hk : Parameter.isSensitive key = true)
    (v : Value) : ¬ (shown key v).InClear := by
  rintro ⟨hnull, htable, hmask⟩
  cases hv : v.isTable with
  | true =>
    obtain ⟨inner, rfl⟩ := Value.isTable_iff.mp hv
    rw [shown] at htable
    cases htable
  | false =>
    rcases shown_of_not_table key hv with ⟨hs, rfl | hn⟩ | hs
    · exact hnull hs
    · rw [hk] at hn
      cases hn
    · exact hmask hs

private theorem exposes_shown {clear : Value → Prop} {key : String} {v : Value}
    (h : (shown key v).Exposes clear) :
    (∃ inner, v = .table inner ∧ (Value.table (masked inner)).Exposes clear) ∨
      ∃ items, v = .array items ∧ Parameter.isSensitive key = false ∧
        (Value.array items).Exposes clear := by
  cases hv : v.isTable with
  | true =>
    obtain ⟨inner, rfl⟩ := Value.isTable_iff.mp hv
    rw [shown] at h
    exact Or.inl ⟨inner, rfl, h⟩
  | false =>
    rcases shown_of_not_table key hv with ⟨hs, hkey⟩ | hs
    · rw [hs] at h
      obtain ⟨items, rfl⟩ := h.exists_items (Value.isLeaf_of_not_table hv)
      exact Or.inr ⟨items, rfl, hkey.resolve_left (fun hn ↦ by cases hn), h⟩
    · rw [hs] at h
      cases h

/-- A masked table exposes exactly what masking does not reach. -/
theorem exposes_masked_iff {t : List (String × Value)} :
    (Value.table (masked t)).Exposes Value.InClear ↔ Unreached Value.InClear t := by
  constructor
  · intro h
    generalize hv : Value.table (masked t) = v at h
    -- the induction is on how the masked table exposes something, for all tables it may mask
    induction h generalizing t with
    | here he hk hx =>
      cases hv
      rw [masked_eq] at he
      obtain ⟨⟨key, v⟩, -, he⟩ := List.mem_map.mp he
      cases he
      exact absurd hx (not_inClear_shown hk v)
    | entry he hx ih =>
      cases hv
      rw [masked_eq] at he
      obtain ⟨⟨key, v⟩, hm, he⟩ := List.mem_map.mp he
      cases he
      rcases exposes_shown hx with ⟨inner, rfl, -⟩ | ⟨items, rfl, hk, hitems⟩
      · exact .table hm (ih (by rw [shown]))
      · exact .array hm hk hitems
    | item => cases hv
  · intro h
    induction h with
    | @array entries key items he hk h =>
      have hs : shown key (.array items) = .array items :=
        if_neg (fun hs ↦ Bool.false_ne_true (hk.symm.trans hs))
      have hm : (key, .array items) ∈ masked entries := by
        rw [masked_eq]
        exact List.mem_map.mpr ⟨_, he, by rw [hs]⟩
      exact .entry hm h
    | @table entries inner key he _ ih =>
      have hm : (key, .table (masked inner)) ∈ masked entries := by
        rw [masked_eq entries]
        exact List.mem_map.mpr ⟨_, he, by rw [shown]⟩
      exact .entry hm ih

end Secret

/-! ### Values in histories -/

private theorem Report.isLeaf_of_leaf? {r : Report} {key : String} {c : Candidate}
    (h : r.leaf? key = some c) : c.value.isLeaf = true := by
  rw [leaf?] at h
  split at h
  · obtain ⟨_, hv, rfl⟩ := Option.map_eq_some_iff.mp h
    exact Table.isLeaf_of_mem_flatten (Keyed.mem_of_get? hv)
  · cases h

private theorem Report.Offers.isLeaf {r : Report} {c : Candidate} (h : r.Offers c) :
    c.value.isLeaf = true := by
  obtain ⟨_, _, v, -, -, hg, rfl⟩ := h
  have hv : (!v.isTable) = true := (Bool.and_eq_true_iff.mp hg).2
  exact Value.isLeaf_of_not_table (Bool.not_eq_true' _ ▸ hv)

private theorem Tracker.Traced.value_of {events : List Event} {t : Tracker} {key : String}
    {c : Candidate} (h : t.Traced events key c) {P : Value → Prop}
    (hP : ∀ e ∈ events, ∀ c, e.candidate? = some c → P c.value) : P c.value := by
  induction h with
  | discovered he => exact hP _ he _ rfl
  | applied he => exact hP _ he _ rfl
  | copied _ _ _ _ ih => exact ih

namespace Pass

variable {reports : List Report} {key : Option String} {default : Option Value}
  {told : List (List Event)} {settling placed : List Event}

private theorem isLeaf_of_told (ht : List.Forall₂ Report.Told reports told)
    (hs : Settling reports settling) :
    ∀ e ∈ told.flatten ++ settling, ∀ c, e.candidate? = some c → c.value.isLeaf = true := by
  intro e he c hc
  cases e with
  | discovered d =>
    obtain rfl := Option.some.inj hc
    obtain ⟨r, -, hr⟩ := leaf?_of_discovered ht hs he
    exact Report.isLeaf_of_leaf? hr
  | broadcast connection d =>
    obtain rfl := Option.some.inj hc
    obtain ⟨r, -, c, ho, rfl⟩ := exists_offer ht hs he
    exact ho.isLeaf
  | _ => cases hc

private theorem value_lastTracker (ht : List.Forall₂ Report.Told reports told)
    (hs : Settling reports settling) (hp : Placed key default placed) {k : String} {c : Candidate}
    (hc : c ∈ (lastTracker told settling placed).candidatesAt k) :
    c.value.isLeaf = true ∨ key = some k ∧ default = some c.value := by
  rcases candidatesAt_placed hp (going_closing (going_told ht) hs.closing) k with
    heq | ⟨v, hk, hv, -, heq⟩
  · rw [lastTracker, heq] at hc
    exact Or.inl ((explained_settled ht hs k c hc).value_of (P := fun v ↦ v.isLeaf = true)
      (isLeaf_of_told ht hs))
  · rw [lastTracker, heq] at hc
    obtain rfl := List.mem_singleton.mp hc
    exact Or.inr ⟨hk, hv⟩

private theorem Stream.exists_lastTracker {result : Except Error Config} {body : List Event}
    (h : Stream reports key default result (.reset :: body)) :
    ∃ some told settling placed, List.Forall₂ Report.Told some told ∧ Settling some settling ∧
      Placed key default placed ∧
      ((∃ e, result = .error e ∧
          body.foldl Tracker.observe {} = lastTracker told settling placed) ∨
        ∃ c, result = .ok c ∧
          body.foldl Tracker.observe {} = (lastTracker told settling placed).finalize c) := by
  generalize hevents : Event.reset :: body = events at h
  cases h with
  | @completed told settling placed c ht hs hp =>
    obtain rfl := (List.cons.inj hevents).2
    refine ⟨reports, told, settling, placed, ht, hs, hp, Or.inr ⟨c, rfl, ?_⟩⟩
    rw [List.foldl_append, List.foldl_append, List.foldl_append]
    rfl
  | @rejected told settling cause ht hs =>
    obtain rfl := (List.cons.inj hevents).2
    refine ⟨reports, told, settling, [], ht, hs, .unused, Or.inl ⟨_, rfl, ?_⟩⟩
    rw [List.foldl_append]
    rfl
  | @stopped before after r told cause hr hb hm ht =>
    obtain rfl := (List.cons.inj hevents).2
    exact ⟨before, told, [], [], ht, settling_nil before, .unused, Or.inl ⟨_, rfl, rfl⟩⟩

end Pass

/-! ### The exported document -/

/-- What stands under a key of a value that is a table. -/
def Value.Has (v : Value) (key : String) (x : Value) : Prop :=
  ∃ entries, v = .table entries ∧ (key, x) ∈ entries

/-- A value that a document shows in the history of a key: the final one, or that of an entry. -/
inductive Value.Shows (document : Value) (key : String) (x : Value) : Prop where
  | final {histories history : Value} (hd : document.Has "histories" histories)
      (hh : histories.Has key history) (hx : history.Has "final_value" x)
  | entry {histories history : Value} {entries : List Value} {entry : Value}
      (hd : document.Has "histories" histories) (hh : histories.Has key history)
      (he : history.Has "entries" (.array entries)) (hm : entry ∈ entries)
      (hx : entry.Has "value" x)

/-- The values of a history: the final one and those of its entries. -/
def History.HasValue (h : History) (v : Value) : Prop := h.final = some v ∨ v ∈ h.values

private theorem History.exported_of_sensitive {key : String} (hk : Parameter.isSensitive key = true)
    (v : Value) : exported true key v = .string (Secret.fingerprint v) :=
  if_pos hk

/-- Under any other key a value is written as it is. -/
theorem History.exported_of_not_sensitive {key : String} (hk : Parameter.isSensitive key = false)
    (redact : Bool) (v : Value) : exported redact key v = v := by
  rw [exported, hk, Bool.and_false, if_neg Bool.false_ne_true]

/-- What a document shows of the final value. -/
theorem History.has_final {h : History} {redact : Bool} {x : Value} :
    (h.document redact).Has "final_value" x ↔
      x = .optional (h.final.map (exported redact h.key)) := by
  simp [document, Value.Has]

private theorem History.has_entries {h : History} {redact : Bool} {items : List Value} :
    (h.document redact).Has "entries" (.array items) ↔
      items = h.entries.zipIdx.map fun e ↦ e.1.document redact h.key e.2 := by
  simp [document, Value.Has]

private theorem Entry.has_value {e : Entry} {redact : Bool} {key : String} {priority : Nat}
    {x : Value} :
    (e.document redact key priority).Has "value" x ↔ x = History.exported redact key e.value := by
  simp [document, Value.Has]

/-- The histories stand in a document under their keys. -/
theorem Tracker.has_histories {t : Tracker} {redact : Bool} {key : String} {x : Value} :
    (∃ histories, (t.document redact).Has "histories" histories ∧ histories.Has key x) ↔
      ∃ h, (key, h) ∈ t.histories ∧ x = h.document redact := by
  simp [document, Value.Has, Keyed.mapValues, and_comm, eq_comm]

/-- What a document shows for a key are the values of its history, as they are exported, and null for
a missing final value. -/
theorem Tracker.shows_document_iff {t : Tracker} {redact : Bool} {key : String} {x : Value} :
    (t.document redact).Shows key x ↔ ∃ h, (key, h) ∈ t.histories ∧
      (h.final = none ∧ x = .null ∨ ∃ v, h.HasValue v ∧ x = History.exported redact h.key v) := by
  constructor
  · rintro (⟨hd, hh, hx⟩ | ⟨hd, hh, he, hm, hx⟩)
    · obtain ⟨h, hmem, rfl⟩ := has_histories.mp ⟨_, hd, hh⟩
      refine ⟨h, hmem, ?_⟩
      rw [History.has_final] at hx
      cases hf : h.final with
      | none =>
        rw [hf] at hx
        exact Or.inl ⟨rfl, hx⟩
      | some v =>
        rw [hf] at hx
        exact Or.inr ⟨v, Or.inl hf, hx⟩
    · obtain ⟨h, hmem, rfl⟩ := has_histories.mp ⟨_, hd, hh⟩
      obtain rfl := History.has_entries.mp he
      obtain ⟨⟨e, n⟩, hen, rfl⟩ := List.mem_map.mp hm
      have hentry : e ∈ h.entries := (List.mem_zipIdx' hen).2 ▸ List.getElem_mem _
      exact ⟨h, hmem, Or.inr ⟨e.value, Or.inr (List.mem_map_of_mem hentry), Entry.has_value.mp hx⟩⟩
  · rintro ⟨h, hmem, hx⟩
    obtain ⟨histories, hd, hh⟩ := has_histories.mpr ⟨h, hmem, rfl⟩
    rcases hx with ⟨hf, rfl⟩ | ⟨v, hf | hv, rfl⟩
    · exact .final hd hh (History.has_final.mpr (by rw [hf]; rfl))
    · exact .final hd hh (History.has_final.mpr (by rw [hf]; rfl))
    · obtain ⟨e, he, rfl⟩ := List.mem_map.mp hv
      obtain ⟨n, hn⟩ := List.getElem?_of_mem he
      have hm : (e, n) ∈ h.entries.zipIdx := List.mem_zipIdx_iff_getElem?.mpr hn
      exact .entry hd hh (History.has_entries.mpr rfl) (List.mem_map_of_mem hm)
        (Entry.has_value.mpr rfl)

namespace Resolver

variable {r : Resolver} {w : World} {key : Option String} {default : Option Value} {t : Tracker}

private theorem history_values (ht : (r.resolve w key default).2.observers.history = some t) :
    Sorted t.histories ∧ ∀ k history, get? k t.histories = some history →
      ∃ leaf, history.Closed k leaf ∧ (∀ v, leaf = some v → v.isLeaf = true) ∧
        ∀ e ∈ history.entries, e.value.isLeaf = true ∨ key = some k ∧ default = some e.value := by
  obtain ⟨body, hbody, -⟩ := r.exists_body w key default
  have hstream : Pass.Stream (reports (r.askAll w key)) key default (r.resolve w key default).1
      (r.events w key default) := Pass.stream_run _ key default
  rw [hbody] at hstream
  rw [history_resolve hbody] at ht
  obtain ⟨_, -, rfl⟩ := Option.map_eq_some_iff.mp ht
  obtain ⟨_, told, settling, placed, htold, hs, hp, hend⟩ := hstream.exists_lastTracker
  -- closing changes no candidates, so it is the tracker before that which has their values
  have hgoing := Pass.going_lastTracker htold hs hp
  have hvalues : ∀ {t : Tracker} {k history},
      (∀ k, t.candidatesAt k = (Pass.lastTracker told settling placed).candidatesAt k) →
      get? k t.histories = some history →
      ∀ e ∈ history.entries, e.value.isLeaf = true ∨ key = some k ∧ default = some e.value := by
    intro t k history hat hh e he
    have hc : e.candidate ∈ t.candidatesAt k := by
      rw [Tracker.candidatesAt, Tracker.entriesAt, hh]
      exact List.mem_map_of_mem he
    rw [hat] at hc
    exact Pass.value_lastTracker htold hs hp hc
  rcases hend with ⟨e, -, heq⟩ | ⟨c, -, heq⟩
  · rw [heq]
    refine ⟨hgoing.sorted, fun k history hh ↦ ⟨none, (hgoing.pending k history hh).closed_none, ?_,
      hvalues (fun _ ↦ rfl) hh⟩⟩
    intro v hv
    cases hv
  · rw [heq]
    refine ⟨hgoing.sorted_finalize c, fun k history hh ↦ ⟨_, hgoing.closed_finalize c hh, ?_,
      hvalues (fun k ↦ Tracker.candidatesAt_finalize _ c k) hh⟩⟩
    intro v hv
    exact Config.isLeaf_of_mem_flatten (Keyed.mem_of_get? hv)

private theorem isLeaf_or_default (ht : (r.resolve w key default).2.observers.history = some t)
    {k : String} {history : History} (hh : (k, history) ∈ t.histories) : history.key = k ∧
      ∀ v, history.HasValue v → v.isLeaf = true ∨ key = some k ∧ default = some v := by
  obtain ⟨hsorted, hall⟩ := history_values ht
  obtain ⟨leaf, hclosed, hleaf, hentries⟩ := hall k history (hsorted.mem_iff.mp hh)
  have hvalues : ∀ v ∈ history.values, v.isLeaf = true ∨ key = some k ∧ default = some v := by
    intro v hv
    obtain ⟨e, he, rfl⟩ := List.mem_map.mp hv
    exact hentries e he
  refine ⟨hclosed.key_eq, ?_⟩
  intro v hv
  rcases hv with hf | hv
  · rw [hclosed.final_eq] at hf
    rcases Option.or_eq_some_iff.mp hf with hs | ⟨-, hl⟩
    · obtain ⟨e, he, rfl⟩ := Option.map_eq_some_iff.mp hs
      exact hvalues _ (List.mem_map_of_mem (List.mem_of_find?_eq_some he))
    · exact Or.inl (hleaf _ hl)
  · exact hvalues v hv

/-- What is exposed of secrets. A masked table exposes what an array in it does that is under a key
that names none. After any resolution, a redacted document exposes what the document without redaction
does under such a key, and there only in an array or in the caller's default. -/
theorem exposes_iff (shown : Table) (ht : (r.resolve w key default).2.observers.history = some t)
    (clear : Value → Prop) (k : String) (x : Value) :
    ((Value.table (Secret.masked shown)).Exposes Value.InClear ↔
      Secret.Unreached Value.InClear shown) ∧
    ((t.document true).Shows k x ∧ x.Exposes clear ↔
      Parameter.isSensitive k = false ∧ (t.document false).Shows k x ∧ x.Exposes clear ∧
        ((∃ items, x = .array items) ∨ key = some k ∧ default = some x)) := by
  refine ⟨Secret.exposes_masked_iff, ?_⟩
  constructor
  · rintro ⟨hshow, hx⟩
    obtain ⟨history, hh, ⟨-, rfl⟩ | ⟨v, hv, rfl⟩⟩ := Tracker.shows_document_iff.mp hshow
    · cases hx
    · obtain ⟨hkey, hvalues⟩ := isLeaf_or_default ht hh
      rw [hkey] at hx ⊢
      cases hk : Parameter.isSensitive k with
      | true =>
        rw [History.exported_of_sensitive hk] at hx
        cases hx
      | false =>
        rw [History.exported_of_not_sensitive hk] at hx ⊢
        refine ⟨rfl, Tracker.shows_document_iff.mpr ⟨history, hh, Or.inr ⟨v, hv, rfl⟩⟩, hx, ?_⟩
        exact (hvalues v hv).imp hx.exists_items id
  · rintro ⟨hk, hshow, hx, -⟩
    refine ⟨?_, hx⟩
    obtain ⟨history, hh, ⟨-, rfl⟩ | ⟨v, hv, hxv⟩⟩ := Tracker.shows_document_iff.mp hshow
    · cases hx
    · refine Tracker.shows_document_iff.mpr ⟨history, hh, Or.inr ⟨v, hv, ?_⟩⟩
      rw [hxv, (isLeaf_or_default ht hh).1, History.exported_of_not_sensitive hk,
        History.exported_of_not_sensitive hk]

/-- A list of hosts with their passwords. -/
def hosts : Value := .array [.table [("password", .string "x")]]

/-- It exposes the password. -/
theorem exposes_clear_hosts {clear : Value → Prop} (h : clear (.string "x")) :
    hosts.Exposes clear :=
  .item List.mem_cons_self (.here List.mem_cons_self (by decide) h)

/-- A connection with the list of hosts, and with the same list under the name of a secret. -/
def hostsTwice : Resolver :=
  (ofTables [("base", .file,
    [("connections", .table [("dev", .table [("hosts", hosts), ("token", hosts)])])])]).attach .history

/-- The passwords of the hosts are shown by masking and by redaction, but not where the list is under
the name of a secret. -/
theorem exposes_hosts :
    (Value.table (Secret.masked [("hosts", hosts)])).Exposes Value.InClear ∧
      ∃ t, (hostsTwice.resolve {} none none).2.observers.history = some t ∧
        (t.document true).Shows "connections.dev.hosts" hosts ∧
        ∀ x, (t.document true).Shows "connections.dev.token" x → ¬ x.Exposes (· ≠ .null) := by
  obtain ⟨t, history, ht, hh, hv⟩ : ∃ t history,
      (hostsTwice.resolve {} none none).2.observers.history = some t ∧
        get? "connections.dev.hosts" t.histories = some history ∧ history.values = [hosts] :=
    ⟨_, _, rfl, rfl, rfl⟩
  have hclear : (Value.string "x").InClear := ⟨by simp, rfl, by simp [Secret.mask]⟩
  refine ⟨?_, t, ht, ?_, ?_⟩
  · have hmasked := (exposes_iff [("hosts", hosts)] ht (· ≠ .null) "" .null).1
    exact hmasked.mpr (.array List.mem_cons_self (by decide) (exposes_clear_hosts hclear))
  · have hplain : (t.document false).Shows "connections.dev.hosts" hosts :=
      Tracker.shows_document_iff.mpr ⟨history, Keyed.mem_of_get? hh,
        Or.inr ⟨hosts, Or.inr (hv ▸ List.mem_cons_self), rfl⟩⟩
    have hdocument := (exposes_iff [] ht (· ≠ .null) "connections.dev.hosts" hosts).2
    exact (hdocument.mpr ⟨by decide, hplain, exposes_clear_hosts (by simp), Or.inl ⟨_, rfl⟩⟩).1
  · intro x hshow hx
    have hk : Parameter.isSensitive "connections.dev.token" = true := by decide
    have hdocument := (exposes_iff [] ht (· ≠ .null) "connections.dev.token" x).2
    rw [(hdocument.mp ⟨hshow, hx⟩).1] at hk
    cases hk

/-- An address of a proxy with its password. -/
def proxy : Value := .table [("password", .string "x")]

/-- A masked configuration with the list of hosts still has the password in clear, and so has a redacted
document after a resolution with the proxy as default. -/
theorem exposes_default :
    (Value.table (Secret.masked (Config.toNested { root := [("hosts", hosts)] }))).Exposes
        Value.InClear ∧
      ∃ t, (((ofTables []).attach .history).resolve {} (some "proxy")
          (some proxy)).2.observers.history = some t ∧
        (t.document true).Shows "proxy" proxy ∧ proxy.Exposes (· ≠ .null) := by
  have hclear : (Value.string "x").InClear := ⟨by simp, rfl, by simp [Secret.mask]⟩
  obtain ⟨t, history, ht, hh, hkey, hv⟩ : ∃ t history,
      (((ofTables []).attach .history).resolve {} (some "proxy")
          (some proxy)).2.observers.history = some t ∧
        get? "proxy" t.histories = some history ∧ history.key = "proxy" ∧
        history.values = [proxy] := ⟨_, _, rfl, rfl, rfl, rfl⟩
  have hshown : proxy = History.exported true history.key proxy := by
    rw [hkey, History.exported_of_not_sensitive (by decide)]
  refine ⟨?_, t, ht, Tracker.shows_document_iff.mpr ?_, ?_⟩
  · exact Secret.exposes_masked_iff.mpr
      (.array List.mem_cons_self (by decide) (exposes_clear_hosts hclear))
  · exact ⟨history, Keyed.mem_of_get? hh,
      Or.inr ⟨proxy, Or.inr (hv ▸ List.mem_cons_self), hshown⟩⟩
  · exact .here List.mem_cons_self (by decide) (by simp)

end Resolver

end LayeredConfig
