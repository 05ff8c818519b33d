import LayeredConfig.Proofs.Calls
import LayeredConfig.Proofs.Placement
import LayeredConfig.Proofs.Stream

/-!
# Defaults of the caller

A default is placed in the configuration that the call has without it, and only if nothing is found
there under the key. Then it is found there; only an empty table in the place of all connections leaves
no trace. The tracker notes the default under its key exactly where it was placed.
-/

namespace LayeredConfig

open Keyed (Sorted)

/-- No key comes into a map that is filtered. -/
theorem Keyed.get?_filter_eq_none {α : Type} {k : String} {m : Keyed α} (h : get? k m = none)
    (p : String × α → Bool) : get? k (m.filter p) = none := by
  apply get?_eq_none
  rintro ⟨_, a⟩ he rfl
  have hm := isSome_get?_of_mem (List.mem_filter.mp he).1
  rw [h] at hm
  cases hm

/-! ### Roots without a key for connections -/

namespace Layers

variable {l : Layers} {r : Report} {t : Table} {c : Config}

private theorem get?_root_add (hl : Keyed.get? connectionsKey l.config.root = none)
    (hs : Config.ofNested t = .ok c) :
    Keyed.get? connectionsKey (l.add r c).1.config.root = none := by
  have hc : Keyed.get? connectionsKey c.root = none := by
    rw [(Config.ofNested_ok hs).1, Keyed.get?_erase, if_pos rfl]
  rw [← Keyed.contains_eq_false_iff] at hl hc ⊢
  rw [add]
  split
  · rw [addFile, Keyed.contains_overlay, hl, hc, Bool.or_false]
  · rw [addOverlay_eq]
    dsimp only
    rw [Table.deepMerge_eq_merge, Keyed.contains_merge, Table.deepMerge_eq_merge,
      Keyed.contains_merge, Bool.or_assoc, contains_split, hl, hc, Bool.or_false]

private theorem get?_root_settle (hl : Keyed.get? connectionsKey l.config.root = none) :
    Keyed.get? connectionsKey l.settle.1.root = none := by
  rw [settle]
  split
  · exact hl
  · exact Keyed.get?_filter_eq_none hl _

end Layers

namespace Pass

private theorem get?_root_merge {l l' : Layers} {reports : List Report}
    (h : (merge l reports).layers = .ok l')
    (hl : Keyed.get? connectionsKey l.config.root = none) :
    Keyed.get? connectionsKey l'.config.root = none := by
  induction reports generalizing l with
  | nil =>
    cases h
    exact hl
  | cons r rest ih =>
    cases r.step with
    | failed e ho =>
      rw [merge_failed ho] at h
      exact ih h hl
    | malformed t cause ho hs =>
      rw [merge_malformed ho hs] at h
      cases h
    | answered t c ho hs =>
      rw [merge_answered ho hs] at h
      exact ih h (Layers.get?_root_add hl hs)

private theorem get?_root_synthesize {c : Config} (hc : Keyed.get? connectionsKey c.root = none) :
    Keyed.get? connectionsKey (synthesize c).1.root = none := by
  rw [synthesize, Config.synthesize]
  dsimp only
  split
  · exact hc
  · exact Keyed.get?_filter_eq_none hc _

private theorem get?_root_conclude {l : Layers} {reports : List Report}
    (h : (merge {} reports).layers = .ok l) :
    Keyed.get? connectionsKey (synthesize l.settle.1).1.root = none :=
  get?_root_synthesize (Layers.get?_root_settle (get?_root_merge h rfl))

end Pass

/-! ### What is found under the key of a default -/

namespace Config

variable {c c' : Config} {key : String} {v : Value}

/-- No connections in the place of all connections: the nested form has no branch for them. -/
def Traceless (key : String) (v : Value) : Prop := key = connectionsKey ∧ v = .table []

private theorem lookup_set_connections (hc : Keyed.get? connectionsKey c.root = none)
    (hn : c.lookup connectionsKey = none) (h : c.set connectionsKey v = .ok c') (hv : v.Ordered) :
    (v = .table [] ∧ c'.lookup connectionsKey = none) ∨
      (v ≠ .table [] ∧ c'.lookup connectionsKey = some v) := by
  have hp : Place.of connectionsKey = .connections := by decide
  have hempty : c.connections = [] := by
    rw [lookup_connections hp hc] at hn
    cases hl : c.connections with
    | nil => rfl
    | cons e rest =>
      rw [hl] at hn
      cases hn
  rw [lookup_connections hp (get?_root_set hc h)]
  obtain ⟨records, rfl, rfl⟩ := exists_records_of_set h
  have hrecords : Keyed.overlay [] records = records := by
    have hsorted := Table.sorted_of_ofRecords (Value.Ordered.sorted hv)
    apply (Keyed.sorted_nil.overlay records).ext hsorted
    intro k
    rw [Keyed.get?_overlay _ hsorted, Keyed.get?_nil, Option.or_none]
  rw [hempty, hrecords]
  cases records with
  | nil => exact Or.inl ⟨rfl, rfl⟩
  | cons e rest => exact Or.inr ⟨fun he ↦ (List.cons_ne_nil _ _ (Value.table.inj he)), rfl⟩

/-- What is placed where nothing was found is found there, unless it leaves no trace. -/
theorem lookup_set (hc : Keyed.get? connectionsKey c.root = none) (hn : c.lookup key = none)
    (h : c.set key v = .ok c') (hv : v.Ordered) :
    (Traceless key v ∧ c'.lookup key = none) ∨ (¬ Traceless key v ∧ c'.lookup key = some v) := by
  by_cases hk : key = connectionsKey
  · subst hk
    rcases lookup_set_connections hc hn h hv with ⟨he, hl⟩ | ⟨he, hl⟩
    · exact Or.inl ⟨⟨rfl, he⟩, hl⟩
    · exact Or.inr ⟨fun ht ↦ he ht.2, hl⟩
  · refine Or.inr ⟨fun ht ↦ hk ht.1, ?_⟩
    rw [lookup, valueAt?_set_self hc hk h]

end Config

/-! ### What a tracker notes of defaults -/

/-- Whether a default was used for a key. -/
def Event.fills (key : String) : Event → Bool
  | .defaultUsed k _ => k == key
  | _ => false

private theorem Event.Reporting.fills {e : Event} (h : e.Reporting) (key : String) :
    e.fills key = false := by
  cases e with
  | received | sourceFailed | discovered | broadcast => rfl
  | _ => cases h

namespace History

private theorem defaultUsed_record (h : History) (c : Candidate) :
    (h.record c).defaultUsed = h.defaultUsed := by
  rw [record]
  split <;> rfl

private theorem defaultUsed_close (h : History) (v : Value) :
    (h.close v).defaultUsed = h.defaultUsed := by
  rw [close]
  split
  · next winner _ =>
    rw [select?]
    cases h.entries.find? fun e ↦ e.source == winner.source <;> rfl
  · rfl

end History

namespace Tracker

variable (t : Tracker) (key : String)

/-- Whether the history of a key shows that a default was used. -/
def usesDefault : Bool := (Keyed.get? key t.histories).any History.defaultUsed

variable {key}

/-- What a history shows of defaults changes with the history. -/
theorem usesDefault_update (k : String) (f : History → History) :
    (t.update k f).usesDefault key =
      if k = key then (f ((Keyed.get? k t.histories).getD { key := k })).defaultUsed
      else t.usesDefault key := by
  rw [usesDefault, update, Keyed.get?_insert]
  split <;> rfl

/-- Candidates show nothing of defaults. -/
theorem usesDefault_record (c : Candidate) : (t.record c).usesDefault key = t.usesDefault key := by
  rw [record, usesDefault_update]
  split
  · next hk =>
    rw [History.defaultUsed_record, usesDefault, ← hk]
    cases Keyed.get? c.key t.histories <;> rfl
  · rfl

private theorem usesDefault_foldl (cs : List Candidate) :
    (cs.foldl record t).usesDefault key = t.usesDefault key := by
  induction cs generalizing t with
  | nil => rfl
  | cons c cs ih => rw [List.foldl_cons, ih, usesDefault_record]

private theorem usesDefault_replicate (keys : List String) (connection : String) :
    (t.replicate keys connection).usesDefault key = t.usesDefault key := by
  rw [replicate]
  induction keys generalizing t with
  | nil => rfl
  | cons k keys ih => rw [List.foldl_cons, ih, replicateKey_eq, usesDefault_foldl]

/-- The end of a pass keeps what histories show of defaults. -/
theorem usesDefault_finalize (c : Config) :
    (t.finalize c).usesDefault key = t.usesDefault key := by
  rw [usesDefault, get?_finalize, usesDefault]
  cases Keyed.get? key t.histories with
  | none => rfl
  | some h =>
    dsimp only [Option.map_some, Option.any_some]
    split
    · exact h.defaultUsed_close _
    · rfl

/-- Only the use of a default for a key makes its history show one. -/
theorem usesDefault_observe {e : Event} (he : e ≠ .reset) :
    (t.observe e).usesDefault key = (e.fills key || t.usesDefault key) := by
  cases e with
  | reset => exact absurd rfl he
  | received | sourceFailed => rfl
  | discovered c => exact t.usesDefault_record c
  | broadcast _ c => exact t.usesDefault_record c
  | synthesized connection keys => exact t.usesDefault_replicate keys connection
  | finalized c => exact t.usesDefault_finalize c
  | defaultUsed k v =>
    rw [observe, markDefault, usesDefault_update, Event.fills]
    by_cases hk : k = key <;> simp [hk, History.markDefault]

/-- After a pass the histories show the defaults that were used in it. -/
theorem usesDefault_foldl_observe {events : List Event} (h : Event.reset ∉ events) :
    (events.foldl observe t).usesDefault key =
      (events.any (Event.fills key) || t.usesDefault key) := by
  induction events generalizing t with
  | nil => rfl
  | cons e events ih =>
    rw [List.mem_cons, not_or] at h
    rw [List.foldl_cons, ih _ h.2, t.usesDefault_observe (Ne.symm h.1), List.any_cons]
    cases e.fills key <;> simp

end Tracker

/-! ### Passes with a default -/

namespace Pass

variable {reports : List Report} {key : String} {v : Value} {c c' : Config} {placed : List Event}

/-- A default is placed where nothing is found, and this is told. -/
theorem place_ok (h : place c (some key) (some v) = .ok (c', placed)) :
    ((c.lookup key).isSome = true ∧ c' = c ∧ placed = []) ∨
      (c.lookup key = none ∧ c.set key v = .ok c' ∧ placed = [.defaultUsed key v]) := by
  rw [place] at h
  split at h
  · next hfound =>
    cases h
    exact Or.inl ⟨hfound, rfl, rfl⟩
  · next hmissing =>
    split at h
    · next hset =>
      cases h
      exact Or.inr ⟨Option.not_isSome_iff_eq_none.mp hmissing, hset, rfl⟩
    · cases h

private theorem fills_synthesize (c : Config) (k : String) :
    (synthesize c).2.any (Event.fills k) = false := by
  rw [synthesize]
  dsimp only
  split <;> rfl

/-- A pass with a default places it in the configuration of the pass without, and the default is all
that it tells of defaults. -/
theorem run_default (h : (run reports (some key) (some v)).result = .ok c') :
    ∃ c placed, (run reports (some key) none).result = .ok c ∧
      Keyed.get? connectionsKey c.root = none ∧
      place c (some key) (some v) = .ok (c', placed) ∧
      ∀ k, (run reports (some key) (some v)).events.any (Event.fills k) =
        placed.any (Event.fills k) := by
  cases hl : (merge {} reports).layers with
  | error e =>
    rw [run_of_error hl] at h
    cases h
  | ok l =>
    have hreported : ∀ {events : List Event}, (∀ e ∈ events, e.Reporting) → ∀ k,
        events.any (Event.fills k) = false := by
      intro events hr k
      simp only [List.any_eq_false]
      intro e he
      rw [(hr e he).fills]
      exact Bool.false_ne_true
    rw [run_of_ok hl, conclude] at h
    cases hp : place (synthesize l.settle.1).1 (some key) (some v) with
    | error e =>
      rw [hp] at h
      cases h
    | ok result =>
      obtain ⟨config, placed⟩ := result
      rw [hp] at h
      obtain rfl : config = c' := Except.ok.inj h
      refine ⟨(synthesize l.settle.1).1, placed, ?_, get?_root_conclude hl, hp, ?_⟩
      · rw [run_of_ok hl, conclude, place_none]
      · intro k
        have hmerged := hreported (reporting_merge {} reports) k
        have hsettled := hreported l.reporting_settle k
        have hmade := fills_synthesize l.settle.1 k
        rw [run_of_ok hl, conclude, hp]
        simp [hmerged, hsettled, hmade, Event.fills]

end Pass

namespace Resolver

/-- What is resolved under a key is found in the result. -/
theorem resolveValue_fst (r : Resolver) (w : World) (key : String) (default : Option Value) :
    (r.resolveValue w key default).1 =
      (r.resolve w (some key) default).1.map fun c ↦ c.lookup key := rfl

/-- A caller who gives a default finds what is found without it, in the configuration that is there
without it, or else the default; only an empty table in the place of all connections is not found. The
histories show a default for this key alone, and only if nothing is found without it. -/
theorem resolveValue_default (r₁ r₂ : Resolver) (w₁ w₂ : World) (key : String) {d : Value}
    (hd : d.Ordered) (h : r₁.reached w₁ (some key) = r₂.reached w₂ (some key))
    {found : Option Value} (hok : (r₂.resolveValue w₂ key (some d)).1 = .ok found) :
    ∃ plain, (r₁.resolveValue w₁ key none).1 = .ok plain ∧
      (plain.isSome = true → found = plain ∧
        (r₂.resolve w₂ (some key) (some d)).1 = (r₁.resolve w₁ (some key) none).1) ∧
      (plain = none → (Config.Traceless key d ∧ found = none) ∨
        (¬ Config.Traceless key d ∧ found = some d)) ∧
      ∀ t, (r₂.resolveValue w₂ key (some d)).2.observers.history = some t → ∀ k,
        (t.usesDefault k = true ↔ k = key ∧ plain = none) := by
  have hresult : (r₁.resolve w₁ (some key) none).1 =
      (Pass.run (reports (r₂.askAll w₂ (some key))) (some key) none).result := by
    rw [result_resolve, run_alike h]
  obtain ⟨c', hrun, hfound⟩ : ∃ c', (r₂.resolve w₂ (some key) (some d)).1 = .ok c' ∧
      c'.lookup key = found := by
    rw [resolveValue_fst] at hok
    cases hr : (r₂.resolve w₂ (some key) (some d)).1 with
    | error e =>
      rw [hr] at hok
      cases hok
    | ok c' =>
      rw [hr] at hok
      exact ⟨c', rfl, Except.ok.inj hok⟩
  rw [result_resolve] at hrun
  obtain ⟨c, placed, hplain, hroot, hp, hfills⟩ := Pass.run_default hrun
  rw [hplain] at hresult
  -- the tracker has seen the events of this pass only
  have huses : ∀ t, (r₂.resolveValue w₂ key (some d)).2.observers.history = some t → ∀ k,
      t.usesDefault k = placed.any (Event.fills k) := by
    intro t ht k
    obtain ⟨body, he, hreset⟩ := r₂.exists_body w₂ (some key) (some d)
    have hbody : placed.any (Event.fills k) = body.any (Event.fills k) := by
      rw [← hfills, ← events, he]
      rfl
    rw [resolveValue, history_resolve he] at ht
    obtain ⟨_, -, rfl⟩ := Option.map_eq_some_iff.mp ht
    rw [Tracker.usesDefault_foldl_observe _ hreset, hbody]
    exact Bool.or_false _
  refine ⟨c.lookup key, by rw [resolveValue_fst, hresult]; rfl, ?_⟩
  rcases Pass.place_ok hp with ⟨hsome, rfl, rfl⟩ | ⟨hnone, hset, rfl⟩
  · refine ⟨fun _ ↦ ⟨hfound.symm, ?_⟩, ?_, ?_⟩
    · rw [result_resolve, hrun, hresult]
    · intro hnone
      rw [hnone] at hsome
      cases hsome
    · intro t ht k
      rw [huses t ht k]
      simp [Option.isSome_iff_ne_none.mp hsome]
  · refine ⟨?_, ?_, ?_⟩
    · rw [hnone]
      exact fun hsome ↦ absurd hsome Bool.false_ne_true
    · intro _
      rw [← hfound]
      exact Config.lookup_set hroot hnone hset hd
    · intro t ht k
      rw [huses t ht k]
      simp [Event.fills, hnone, @eq_comm _ key]

/-- A file with the account of a connection, and a tracker. -/
def accountOnly : Resolver :=
  (ofTables
    [("base", .file, [("connections", .table [("a", .table [("account", .string "x")])])])]).attach
      .history

/-- A default is found in the place of the warehouse that the connection lacks, and the histories show
it there. The account is found with a default as without. -/
theorem resolveValue_default_warehouse :
    (∃ t, (accountOnly.resolveValue {} "connections.a.warehouse" (some (.string "w"))).1 =
        .ok (some (.string "w")) ∧
      (accountOnly.resolveValue {} "connections.a.warehouse"
        (some (.string "w"))).2.observers.history = some t ∧
      t.usesDefault "connections.a.warehouse" = true ∧
      t.usesDefault "connections.a.account" = false) ∧
    (accountOnly.resolveValue {} "connections.a.account" (some (.string "y"))).1 =
      .ok (some (.string "x")) := by
  constructor
  · obtain ⟨plain, hp, -, hnone, huses⟩ := resolveValue_default accountOnly accountOnly {} {}
      "connections.a.warehouse" (d := .string "w") trivial rfl rfl
    obtain rfl : none = plain := Except.ok.inj hp
    rcases hnone rfl with ⟨⟨hk, -⟩, -⟩ | ⟨-, hfound⟩
    · exact absurd hk (by decide)
    · refine ⟨_, congrArg Except.ok hfound, rfl, ?_, ?_⟩
      · exact (huses _ rfl _).mpr ⟨rfl, rfl⟩
      · rw [Bool.eq_false_iff]
        exact fun hu ↦ absurd ((huses _ rfl _).mp hu).1 (by decide)
  · obtain ⟨plain, hp, hsome, -, -⟩ := resolveValue_default accountOnly accountOnly {} {}
      "connections.a.account" (d := .string "y") trivial rfl rfl
    obtain rfl : some (Value.string "x") = plain := Except.ok.inj hp
    exact congrArg Except.ok (hsome rfl).1

/-- An empty table of connections is noted as used where there is nothing, and is not found. -/
theorem resolveValue_default_untraced :
    let r := (ofTables []).attach .history
    (r.resolveValue {} "connections" (some (.table []))).1 = .ok none ∧
      ∃ t, (r.resolveValue {} "connections" (some (.table []))).2.observers.history = some t ∧
        t.usesDefault "connections" = true :=
  ⟨rfl, _, rfl, rfl⟩

end Resolver

end LayeredConfig
