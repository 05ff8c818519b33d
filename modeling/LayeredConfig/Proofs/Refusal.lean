import LayeredConfig.Proofs.Places
import LayeredConfig.Proofs.Runs

/-!
# Refusals

A resolution is refused for two reasons only. A source may answer with something else than tables
where its connections should be: then the first such source, files before overlays, is the end of
the pass. Or the caller's default for a connection may be no table: then everything was merged, and
the default has no place. In all other cases there is a configuration.
-/

namespace LayeredConfig

open Keyed (get?)

/-- A table of tables only, such as connections are. -/
def Value.TableOfTables (v : Value) : Prop :=
  ∃ entries, v = .table entries ∧ ∀ e ∈ entries, e.2.isTable = true

/-- The entries of a table make records if all of them are tables. -/
theorem Table.records_cases (entries : Table) :
    (∃ records, Table.records entries = .ok records ∧ ∀ e ∈ entries, e.2.isTable = true) ∨
      ∃ found, Table.records entries = .error found ∧ ¬ ∀ e ∈ entries, e.2.isTable = true := by
  induction entries with
  | nil => exact Or.inl ⟨[], rfl, fun e he ↦ absurd he List.not_mem_nil⟩
  | cons e rest ih =>
    obtain ⟨name, v⟩ := e
    simp only [List.forall_mem_cons]
    cases v with
    | table record =>
      rw [Table.records]
      rcases ih with ⟨records, hr, hall⟩ | ⟨found, hr, hnot⟩
      · exact Or.inl ⟨_, by rw [hr], rfl, hall⟩
      · exact Or.inr ⟨_, by rw [hr], fun h ↦ hnot h.2⟩
    | _ => exact Or.inr ⟨_, rfl, fun h ↦ Bool.false_ne_true h.1⟩

/-- A table is a table of tables if its entries are. -/
theorem Value.tableOfTables_table {entries : Table} :
    (Value.table entries).TableOfTables ↔ ∀ e ∈ entries, e.2.isTable = true := by
  constructor
  · rintro ⟨_, heq, h⟩
    obtain rfl := Value.table.inj heq
    exact h
  · exact fun h ↦ ⟨entries, rfl, h⟩

/-- Nothing but a table is a table of tables. -/
theorem Value.TableOfTables.isTable {v : Value} (h : v.TableOfTables) : v.isTable = true := by
  obtain ⟨entries, rfl, -⟩ := h
  rfl

/-- Where some members of a list have a property, one of them comes first. -/
theorem exists_first {α : Type} {P : α → Prop} {l : List α} (h : ∃ a ∈ l, P a) :
    ∃ before a after, l = before ++ a :: after ∧ (∀ b ∈ before, ¬ P b) ∧ P a := by
  classical
  obtain ⟨a, ha, hp⟩ := h
  have hfind : (l.find? (P ·)).isSome := by
    rw [List.find?_isSome]
    exact ⟨a, ha, decide_eq_true hp⟩
  obtain ⟨first, hfirst⟩ := Option.isSome_iff_exists.mp hfind
  obtain ⟨hp, before, after, hs, hbefore⟩ := List.find?_eq_some_iff_append.mp hfirst
  refine ⟨before, first, after, hs, ?_, of_decide_eq_true hp⟩
  intro b hb
  simpa using hbefore b hb

/-! ### Reports that end a pass -/

/-- A table can be split unless its branch of connections is something else than tables. -/
theorem Config.ofNested_cases (t : Table) :
    (∃ c, ofNested t = .ok c ∧ ∀ v, Keyed.get? connectionsKey t = some v → v.TableOfTables) ∨
      ∃ cause, ofNested t = .error cause ∧
        ∃ v, Keyed.get? connectionsKey t = some v ∧ ¬ v.TableOfTables := by
  rw [ofNested]
  cases hb : Keyed.get? connectionsKey t with
  | none =>
    refine Or.inl ⟨_, rfl, ?_⟩
    intro v hv
    cases hv
  | some v =>
    cases v with
    | table entries =>
      simp only [Option.some.injEq, exists_eq_left', forall_eq', Value.tableOfTables_table]
      rcases Table.records_cases entries with ⟨records, hr, hall⟩ | ⟨found, hr, hnot⟩
      · exact Or.inl ⟨_, by rw [hr], hall⟩
      · exact Or.inr ⟨_, by rw [hr], hnot⟩
    | _ => exact Or.inr ⟨_, rfl, _, rfl, fun h ↦ Bool.false_ne_true h.isTable⟩

/-- A source has answered with something else than tables where its connections should be. -/
def Report.Malformed (r : Report) : Prop :=
  ∃ t v, r.outcome = .ok t ∧ get? connectionsKey t = some v ∧ ¬ v.TableOfTables

/-- These are the reports whose tables cannot be split. -/
theorem Report.malformed?_isSome_iff (r : Report) : r.malformed?.isSome = true ↔ r.Malformed := by
  cases ho : r.outcome with
  | error e => simp [malformed?_of_error ho, Malformed, ho]
  | ok t =>
    rcases Config.ofNested_cases t with ⟨c, hs, hall⟩ | ⟨cause, hs, v, hv, hnot⟩
    · simp only [malformed?_of_split ho hs, Option.isSome_none, Bool.false_eq_true, false_iff]
      rintro ⟨t', v, ht, hv, hnot⟩
      obtain rfl := Except.ok.inj (ho.symm.trans ht)
      exact hnot (hall v hv)
    · simp only [malformed?_of_not_split ho hs, Option.isSome_some, true_iff]
      exact ⟨t, v, ho, hv, hnot⟩

/-- Any other report has no table that cannot be split. -/
theorem Report.malformed?_eq_none_iff (r : Report) : r.malformed? = none ↔ ¬ r.Malformed := by
  rw [← malformed?_isSome_iff, Bool.not_eq_true, Option.isSome_eq_false_iff,
    Option.isNone_iff_eq_none]

/-! ### Defaults without a place -/

/-- A value that cannot be placed under a key: something else than tables for the connections, or
something else than a table for a connection. -/
def Config.Unplaceable (key : String) (v : Value) : Prop :=
  (key = connectionsKey ∧ ¬ v.TableOfTables) ∨
    ∃ name : String, '.' ∉ name.toList ∧ key = connectionsKey ++ "." ++ name ∧ v.isTable = false

/-- What cannot be placed is told by the place under the key. -/
theorem Config.unplaceable_iff {key : String} {v : Value} :
    Unplaceable key v ↔
      (segments key = (connectionsKey, []) ∧ ¬ v.TableOfTables) ∨
        ∃ name, segments key = (connectionsKey, [name]) ∧ v.isTable = false := by
  have hd : '.' ∉ connectionsKey.toList := by decide
  have hc : key = connectionsKey ↔ segments key = (connectionsKey, []) := by
    constructor
    · rintro rfl
      exact segments_of_no_dot hd
    · exact fun h ↦ (eq_of_segments h).1.symm
  simp only [Unplaceable, hc, segments_eq_pair, hd, not_false_eq_true, true_and, and_assoc]

/-- A value is placed under a key unless it cannot be. -/
theorem Config.set_cases (c : Config) (key : String) (v : Value) :
    (∃ c', c.set key v = .ok c' ∧ ¬ Unplaceable key v) ∨
      ∃ cause, c.set key v = .error cause ∧ Unplaceable key v := by
  rw [unplaceable_iff]
  unfold set
  split
  · next hs =>
    simp only [hs, connectionsKey, true_and, Prod.mk.injEq, reduceCtorEq, and_false, false_and,
      exists_false, or_false, not_not]
    cases v with
    | table entries =>
      rw [Value.tableOfTables_table]
      dsimp only
      rcases Table.records_cases entries with ⟨records, hr, hall⟩ | ⟨found, hr, hnot⟩
      · exact Or.inl ⟨_, by rw [hr], hall⟩
      · exact Or.inr ⟨_, by rw [hr], hnot⟩
    | _ => exact Or.inr ⟨_, rfl, fun h ↦ Bool.false_ne_true h.isTable⟩
  · next name hs =>
    simp only [hs, connectionsKey, Prod.mk.injEq, reduceCtorEq, and_false, false_and, false_or,
      List.cons.injEq, and_true, true_and, exists_eq_left', Bool.not_eq_false]
    cases v with
    | table record => exact Or.inl ⟨_, rfl, rfl⟩
    | _ => exact Or.inr ⟨_, rfl, rfl⟩
  · next name param rest hs =>
    refine Or.inl ⟨_, rfl, ?_⟩
    simp [hs]
  · next first rest hbranch hconnection hfield hs =>
    refine Or.inl ⟨_, rfl, ?_⟩
    rw [hs]
    rintro (⟨h, -⟩ | ⟨name, h, -⟩)
    · obtain ⟨hf, hr⟩ := Prod.mk.inj h
      exact hbranch hf hr
    · obtain ⟨hf, hr⟩ := Prod.mk.inj h
      exact hconnection name hf hr

/-! ### The end of a pass -/

namespace Pass

variable {before reports : List Report} {r : Report}

/-- A merge goes through if all tables can be split. -/
theorem exists_merge_layers (h : ∀ r ∈ reports, r.malformed? = none) (l : Layers) :
    ∃ l', (merge l reports).layers = .ok l' := by
  induction reports generalizing l with
  | nil => exact ⟨l, rfl⟩
  | cons r rest ih =>
    rw [List.forall_mem_cons] at h
    cases r.step with
    | failed e ho =>
      rw [merge_failed ho]
      exact ih h.2 l
    | malformed t cause ho hs =>
      rw [Report.malformed?_of_not_split ho hs] at h
      cases h.1
    | answered t c ho hs =>
      rw [merge_answered ho hs]
      exact ih h.2 _

/-- Otherwise it ends with the first that cannot. What happens is what the reports before it
cause. -/
theorem merge_first (h : ∀ r ∈ before, r.malformed? = none) {cause : Malformed}
    (hr : r.malformed? = some cause) (after : List Report) (l : Layers) :
    (merge l (before ++ r :: after)).layers = .error (.malformedOutput r.source cause) ∧
      (merge l (before ++ r :: after)).events = (merge l before).events := by
  induction before generalizing l with
  | nil =>
    rw [List.nil_append]
    cases r.step with
    | failed e ho =>
      rw [Report.malformed?_of_error ho] at hr
      cases hr
    | malformed t cause' ho hs =>
      rw [Report.malformed?_of_not_split ho hs] at hr
      obtain rfl := Option.some.inj hr
      rw [merge_malformed ho hs]
      exact ⟨rfl, rfl⟩
    | answered t c ho hs =>
      rw [Report.malformed?_of_split ho hs] at hr
      cases hr
  | cons b before ih =>
    rw [List.forall_mem_cons] at h
    rw [List.cons_append]
    cases b.step with
    | failed e ho =>
      obtain ⟨hl, he⟩ := ih h.2 l
      simp only [merge_failed ho, Merged.after, hl, he, and_self]
    | malformed t cause' ho hs =>
      rw [Report.malformed?_of_not_split ho hs] at h
      cases h.1
    | answered t c ho hs =>
      obtain ⟨hl, he⟩ := ih h.2 (l.add b c).1
      simp only [merge_answered ho hs, Merged.after, hl, he, and_self]

/-- The reports that such a merge comes to. -/
theorem reached_first (h : ∀ r ∈ before, r.malformed? = none) {cause : Malformed}
    (hr : r.malformed? = some cause) (after : List Report) :
    reached (before ++ r :: after) = before ++ [r] := by
  induction before with
  | nil => exact reached_of_some hr
  | cons b before ih =>
    rw [List.forall_mem_cons] at h
    rw [List.cons_append, reached_of_none h.1, ih h.2, List.cons_append]

/-- A default has its turn once there is a configuration. -/
theorem run_result (reports : List Report) (key : Option String) (default : Option Value) :
    (run reports key default).result =
      match (run reports key none).result with
      | .error e => .error e
      | .ok c => (place c key default).map Prod.fst := by
  cases hl : (merge {} reports).layers with
  | error e => rw [run_of_error hl, run_of_error hl]
  | ok l =>
    rw [run_of_ok hl, run_of_ok hl, conclude, conclude, place_none]
    dsimp only
    cases place (synthesize l.settle.1).1 key default <;> rfl

/-- A default is placed, if it is needed at all, unless it cannot be. -/
theorem place_cases (c : Config) (key : Option String) (default : Option Value) :
    (∃ placed, place c key default = .ok placed ∧
        ¬ ∃ k v, key = some k ∧ default = some v ∧ c.lookup k = none ∧
          Config.Unplaceable k v) ∨
      ∃ cause, place c key default = .error (.validation cause) ∧
        ∃ k v, key = some k ∧ default = some v ∧ c.lookup k = none ∧
          Config.Unplaceable k v := by
  cases key with
  | none => exact Or.inl ⟨_, rfl, by simp⟩
  | some k =>
    cases default with
    | none => exact Or.inl ⟨_, rfl, by simp⟩
    | some v =>
      simp only [Option.some.injEq, exists_and_left, exists_eq_left']
      rw [place]
      cases hl : c.lookup k with
      | some found => exact Or.inl ⟨_, rfl, by simp⟩
      | none =>
        rw [Option.isSome_none, if_neg Bool.false_ne_true]
        rcases c.set_cases k v with ⟨c', hc, hv⟩ | ⟨cause, hc, hv⟩
        · exact Or.inl ⟨_, by rw [hc], fun h ↦ hv h.2⟩
        · exact Or.inr ⟨cause, by rw [hc], rfl, hv⟩

end Pass

/-! ### Sources in processing order -/

/-- Things of both kinds in processing order: those of files first. -/
def SourceKind.inOrder {α : Type} (kind : α → SourceKind) (l : List α) : List α :=
  l.filter (kind · = .file) ++ l.filter (kind · = .overlay)

/-- Order changes nothing about what is there. -/
theorem SourceKind.mem_inOrder {α : Type} (kind : α → SourceKind) {l : List α} {a : α} :
    a ∈ inOrder kind l ↔ a ∈ l := by
  cases h : kind a <;> simp [inOrder, h]

private theorem Source.kind_after (w : World) (key : Option String) (s : Source) :
    (s.ask w key).2.kind = s.kind := by
  cases s <;> rfl

namespace Resolver

/-- Sources of which the first `n` were asked. -/
def askedUpTo (n : Nat) (asked : List Asked) : List Source :=
  (asked.take n).map Asked.after ++ (asked.drop n).map Asked.before

private theorem askedUpTo_append (n : Nat) (asked later : List Asked) :
    askedUpTo n (asked ++ later) = askedUpTo n asked ++ askedUpTo (n - asked.length) later := by
  induction asked generalizing n with
  | nil => simp [askedUpTo]
  | cons a asked ih =>
    cases n with
    | zero => simp [askedUpTo]
    | succ n =>
      have hn : n + 1 - (a :: asked).length = n - asked.length := by
        rw [List.length_cons, Nat.add_sub_add_right]
      rw [hn]
      exact congrArg (a.after :: ·) (ih n)

private theorem reports_eq_map (asked : List Asked) :
    reports asked = (SourceKind.inOrder (·.report.kind) asked).map Asked.report := by
  simp only [reports, SourceKind.inOrder, List.filter_map, List.map_append, Function.comp_def]

private theorem filter_settle {asked : List Asked}
    (h : ∀ a ∈ asked, a.before.kind = a.report.kind ∧ a.after.kind = a.report.kind)
    (files overlays : Nat) :
    (settle files overlays asked).filter (·.kind = .file) =
        askedUpTo files (asked.filter (·.report.kind = .file)) ∧
      (settle files overlays asked).filter (·.kind = .overlay) =
        askedUpTo overlays (asked.filter (·.report.kind = .overlay)) := by
  induction asked generalizing files overlays with
  | nil => simp [settle, askedUpTo]
  | cons a rest ih =>
    rw [List.forall_mem_cons] at h
    obtain ⟨⟨hb, ha⟩, h⟩ := h
    cases hk : a.report.kind with
    | file =>
      cases files with
      | zero => simp [settle, hk, hb, ih h, askedUpTo]
      | succ files => simp [settle, hk, ha, ih h, askedUpTo]
    | overlay =>
      cases overlays with
      | zero => simp [settle, hk, hb, ih h, askedUpTo]
      | succ overlays => simp [settle, hk, ha, ih h, askedUpTo]

variable (r : Resolver) (w : World) (key : Option String) (default : Option Value)

private theorem sources_resolve :
    SourceKind.inOrder Source.kind (r.resolve w key default).2.sources =
      askedUpTo (r.reached w key).length
        (SourceKind.inOrder (·.report.kind) (r.askAll w key)) := by
  have hkind : ∀ a ∈ r.askAll w key,
      a.before.kind = a.report.kind ∧ a.after.kind = a.report.kind := by
    intro a ha
    obtain ⟨s, -, rfl⟩ := List.mem_map.mp ha
    have hr := s.kind_ask w key
    exact ⟨hr.symm, (s.kind_after w key).trans hr.symm⟩
  change SourceKind.inOrder _ (settle (Pass.run _ key default).consulted
    ((Pass.run _ key default).consulted - _) _) = _
  rw [Pass.run_consulted, SourceKind.inOrder, (filter_settle hkind _ _).1,
    (filter_settle hkind _ _).2, List.countP_eq_length_filter, SourceKind.inOrder,
    askedUpTo_append]
  rfl

/-- A default is refused: nothing is found under the key, and the default cannot be placed there. -/
def Rejects : Prop :=
  ∃ k v c, key = some k ∧ default = some v ∧ (r.resolve w key none).1 = .ok c ∧
    c.lookup k = none ∧ Config.Unplaceable k v

variable {r w key}

/-- Of the sources whose answers are no configurations one comes first. -/
theorem exists_first_malformed (h : ∃ a ∈ r.askAll w key, a.report.Malformed) :
    ∃ before a after,
      SourceKind.inOrder (·.report.kind) (r.askAll w key) = before ++ a :: after ∧
        (∀ b ∈ before, ¬ b.report.Malformed) ∧ a.report.Malformed := by
  obtain ⟨a, ha, hm⟩ := h
  exact exists_first (P := fun a : Asked ↦ a.report.Malformed)
    ⟨a, (SourceKind.mem_inOrder _).mpr ha, hm⟩

/-- The first source whose answer is no configuration ends the resolution: with an error in its
name, the sources behind it unasked, and no event but those of the sources before it. -/
theorem resolve_of_first {before after : List Asked} {a : Asked}
    (hs : SourceKind.inOrder (·.report.kind) (r.askAll w key) = before ++ a :: after)
    (hbefore : ∀ b ∈ before, ¬ b.report.Malformed) (ha : a.report.Malformed) :
    (∃ cause, (r.resolve w key default).1 = .error (.malformedOutput a.before.name cause)) ∧
      SourceKind.inOrder Source.kind (r.resolve w key default).2.sources =
        (before ++ [a]).map Asked.after ++ after.map Asked.before ∧
      (r.resolve w key default).2.observers = r.observers.notifyAll
        (.reset :: (Pass.merge {} (before.map Asked.report)).events) := by
  have hreports : reports (r.askAll w key) =
      before.map Asked.report ++ a.report :: after.map Asked.report := by
    rw [reports_eq_map, hs, List.map_append, List.map_cons]
  have hquiet : ∀ report ∈ before.map Asked.report, report.malformed? = none := by
    intro report hr
    obtain ⟨b, hb, rfl⟩ := List.mem_map.mp hr
    exact b.report.malformed?_eq_none_iff.mpr (hbefore b hb)
  obtain ⟨cause, hcause⟩ :=
    Option.isSome_iff_exists.mp (a.report.malformed?_isSome_iff.mpr ha)
  have hname : a.report.source = a.before.name := by
    have hmem : a ∈ r.askAll w key := by
      rw [← SourceKind.mem_inOrder (·.report.kind), hs]
      exact List.mem_append_right _ List.mem_cons_self
    obtain ⟨s, -, rfl⟩ := List.mem_map.mp hmem
    exact s.source_ask w key
  obtain ⟨hl, he⟩ := Pass.merge_first hquiet hcause (after.map Asked.report) {}
  rw [← hreports] at hl he
  refine ⟨⟨cause, ?_⟩, ?_, ?_⟩
  · rw [result_resolve, Pass.run_of_error hl, hname]
  · have hlen : (r.reached w key).length = (before ++ [a]).length := by
      rw [reached, hreports, Pass.reached_first hquiet hcause]
      simp
    have happ : before ++ a :: after = (before ++ [a]) ++ after := by simp
    rw [sources_resolve, hlen, hs, happ, askedUpTo, List.take_left, List.drop_left]
  · rw [observers_resolve, events, Pass.run_of_error hl, he]

/-- Without such a source, a resolution has a configuration, unless the default is refused. -/
theorem resolve_of_none (h : ∀ a ∈ r.askAll w key, ¬ a.report.Malformed) :
    (∃ c, (r.resolve w key default).1 = .ok c ∧ ¬ r.Rejects w key default) ∨
      ∃ cause, (r.resolve w key default).1 = .error (.validation cause) ∧
        r.Rejects w key default := by
  have hquiet : ∀ report ∈ reports (r.askAll w key), report.malformed? = none := by
    intro report hr
    obtain ⟨a, ha, rfl⟩ := mem_reports hr
    exact a.report.malformed?_eq_none_iff.mpr (h a ha)
  obtain ⟨l, hl⟩ := Pass.exists_merge_layers hquiet {}
  have hplain : (r.resolve w key none).1 = .ok (Pass.synthesize l.settle.1).1 := by
    rw [result_resolve, Pass.run_of_ok hl, Pass.conclude, Pass.place_none]
  have hresult : (r.resolve w key default).1 =
      (Pass.place (Pass.synthesize l.settle.1).1 key default).map Prod.fst := by
    rw [result_resolve, Pass.run_result, ← result_resolve, hplain]
  have hrejects : r.Rejects w key default ↔ ∃ k v, key = some k ∧ default = some v ∧
      (Pass.synthesize l.settle.1).1.lookup k = none ∧ Config.Unplaceable k v := by
    simp only [Rejects, hplain, Except.ok.injEq, exists_and_left, exists_eq_left']
  rw [hrejects]
  rcases Pass.place_cases (Pass.synthesize l.settle.1).1 key default with
    ⟨placed, hp, hn⟩ | ⟨cause, hp, hr⟩
  · refine Or.inl ⟨placed.1, ?_, hn⟩
    rw [hresult, hp]
    rfl
  · refine Or.inr ⟨cause, ?_, hr⟩
    rw [hresult, hp]
    rfl

/-- A resolution fails in two ways only. If a source answers with something else than tables where
its connections should be, the first such source in processing order, files before overlays, ends
it: the error has the name of that source, the sources behind it are not asked, and observers hear
only of those before it. Otherwise a default is refused exactly if nothing is found under its key
and it is no table where connections are named. In all other cases there is a configuration. -/
theorem resolve_fails (r : Resolver) (w : World) (key : Option String) (default : Option Value) :
    ((∃ source cause, (r.resolve w key default).1 = .error (.malformedOutput source cause)) ↔
        ∃ a ∈ r.askAll w key, a.report.Malformed) ∧
      (∀ before a after,
        SourceKind.inOrder (·.report.kind) (r.askAll w key) = before ++ a :: after →
        (∀ b ∈ before, ¬ b.report.Malformed) → a.report.Malformed →
          (∃ cause, (r.resolve w key default).1 =
              .error (.malformedOutput a.before.name cause)) ∧
            SourceKind.inOrder Source.kind (r.resolve w key default).2.sources =
              (before ++ [a]).map Asked.after ++ after.map Asked.before ∧
            (r.resolve w key default).2.observers = r.observers.notifyAll
              (.reset :: (Pass.merge {} (before.map Asked.report)).events)) ∧
      ((∃ cause, (r.resolve w key default).1 = .error (.validation cause)) ↔
        (∀ a ∈ r.askAll w key, ¬ a.report.Malformed) ∧ r.Rejects w key default) ∧
      ((∃ c, (r.resolve w key default).1 = .ok c) ↔
        (∀ a ∈ r.askAll w key, ¬ a.report.Malformed) ∧ ¬ r.Rejects w key default) := by
  refine and_left_comm.mp ⟨?_, ?_⟩
  · intro before a after hs hbefore ha
    exact resolve_of_first default hs hbefore ha
  by_cases h : ∃ a ∈ r.askAll w key, a.report.Malformed
  · obtain ⟨before, a, after, hs, hbefore, ha⟩ := exists_first_malformed h
    obtain ⟨⟨cause, he⟩, -, -⟩ := resolve_of_first default hs hbefore ha
    have hnot : ¬ ∀ a ∈ r.askAll w key, ¬ a.report.Malformed := by
      obtain ⟨a, hmem, hm⟩ := h
      exact fun hall ↦ hall a hmem hm
    rw [he]
    simp [h, hnot]
  · have hall : ∀ a ∈ r.askAll w key, ¬ a.report.Malformed := fun a ha hm ↦ h ⟨a, ha, hm⟩
    rcases resolve_of_none default hall with ⟨c, he, hn⟩ | ⟨cause, he, hr⟩
    · rw [he]
      simpa [h, hn] using hall
    · rw [he]
      simpa [h, hr] using hall

/-- An overlay in front of two files, each of which calls something else connections: the first file
ends the resolution, though the overlay stands before it. Among sources that answer well, text as a
default for a connection is refused. -/
theorem resolve_fails_first_file :
    (∃ cause, ((ofTables
      [("flags", .overlay, [("connections", .null)]), ("base", .file, [("connections", .int 1)]),
        ("local", .file, [("connections", .int 2)])]).resolve {} none none).1 =
          .error (.malformedOutput "base" cause)) ∧
      ∃ cause, ((ofTables [("base", .file, [("account", .string "a")])]).resolve {}
        (some "connections.dev") (some (.string "d"))).1 = .error (.validation cause) := by
  have htables : ∀ v : Value, v.isTable = false → ¬ v.TableOfTables := by
    intro v hv ht
    rw [ht.isTable] at hv
    cases hv
  constructor
  · obtain ⟨-, hfirst, -⟩ := resolve_fails (ofTables
      [("flags", .overlay, [("connections", .null)]), ("base", .file, [("connections", .int 1)]),
        ("local", .file, [("connections", .int 2)])]) {} none none
    exact (hfirst [] _ _ rfl (fun b hb ↦ absurd hb List.not_mem_nil)
      ⟨_, .int 1, rfl, rfl, htables _ rfl⟩).1
  · obtain ⟨-, -, hrefused, -⟩ := resolve_fails (ofTables
      [("base", .file, [("account", .string "a")])]) {} (some "connections.dev")
      (some (.string "d"))
    refine hrefused.mpr ⟨?_, "connections.dev", .string "d", {}, rfl, rfl, rfl, rfl,
      Or.inr ⟨"dev", by decide, by decide, rfl⟩⟩
    intro a ha
    obtain rfl := List.mem_singleton.mp ha
    rintro ⟨t, v, ht, hv, -⟩
    obtain rfl := Except.ok.inj ht
    cases hv

end Resolver

end LayeredConfig
