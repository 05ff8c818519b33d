import LayeredConfig.Proofs.Settled
import LayeredConfig.Resolver

/-!
# Resolution without a key

A pass over well-formed reports ends with the configuration that its answers determine: files first,
then overlays, failed sources left out. From there the connections and the root of a resolution are
told by what the sources supply, whatever the order of files among overlays.
-/

namespace LayeredConfig

open Keyed (Sorted get?)

/-- The answer in a report is that of its outcome. -/
theorem Report.eq_of_answer? {r : Report} {a : Answer} (h : r.answer? = some a) :
    a.report = r ∧ r.outcome = .ok a.data := by
  rw [answer?] at h
  split at h
  · cases h
  · next t ho =>
    split at h
    · obtain rfl := Option.some.inj h
      exact ⟨rfl, ho⟩
    · cases h

/-- A well-formed report is a failure or holds an ordered answer. -/
theorem Report.WellFormed.cases {r : Report} (h : r.WellFormed) :
    (∃ e, r.outcome = .error e ∧ r.answer? = none) ∨
      ∃ a : Answer, a.report = r ∧ r.outcome = .ok a.data ∧ r.answer? = some a ∧ a.Ordered := by
  cases ho : r.outcome with
  | error e =>
    refine Or.inl ⟨e, rfl, ?_⟩
    rw [answer?, ho]
  | ok t =>
    obtain ⟨hordered, c, hc⟩ := h t ho
    refine Or.inr ⟨⟨r, t, c, hc⟩, rfl, rfl, ?_, hordered⟩
    rw [answer?, ho]
    dsimp only
    split
    · next c' hc' =>
      obtain rfl := Except.ok.inj (hc.symm.trans hc')
      rfl
    · next e he =>
      rw [hc] at he
      cases he

/-- The layers once some more answers are in. -/
def Layers.addAll (l : Layers) (answers : List Answer) : Layers :=
  answers.foldl (fun l a ↦ (l.add a.report a.config).1) l

/-- A merge of well-formed reports adds their answers. -/
theorem Pass.merge_layers {reports : List Report} (h : ∀ r ∈ reports, r.WellFormed)
    (l : Layers) :
    (merge l reports).layers = .ok (l.addAll (reports.filterMap Report.answer?)) := by
  induction reports generalizing l with
  | nil => rfl
  | cons r rest ih =>
    have ih := ih fun r' hr' ↦ h r' (List.mem_cons_of_mem _ hr')
    rw [merge]
    rcases (h r List.mem_cons_self).cases with ⟨e, ho, hn⟩ | ⟨a, rfl, ho, hs, -⟩
    · rw [ho, List.filterMap_cons_none hn]
      exact ih l
    · rw [ho, List.filterMap_cons_some hs]
      dsimp only
      rw [a.split]
      exact ih _

/-- Without a default nothing is placed. -/
theorem Pass.place_none (c : Config) (key : Option String) : place c key none = .ok (c, []) := by
  cases key <;> rfl

/-- What some reports supply. -/
def Supply.ofReports (reports : List Report) : Supply where
  files := (reports.filter (·.kind = .file)).filterMap Report.answer?
  overlays := (reports.filter (·.kind = .overlay)).filterMap Report.answer?

/-- Answers from reports of one kind are of that kind. -/
theorem Supply.kind_eq {reports : List Report} {kind : SourceKind} {a : Answer}
    (h : a ∈ (reports.filter (·.kind = kind)).filterMap Report.answer?) :
    a.report.kind = kind := by
  obtain ⟨r, hr, ha⟩ := List.mem_filterMap.mp h
  obtain ⟨rfl, -⟩ := Report.eq_of_answer? ha
  exact of_decide_eq_true (List.mem_filter.mp hr).2

private theorem Supply.layers_ofReports (reports : List Report) :
    Layers.addAll {} (ofReports reports).answers = (ofReports reports).layers := by
  have hf : ∀ a ∈ (ofReports reports).files, a.report.kind = .file := fun _ ↦ kind_eq
  have ho : ∀ a ∈ (ofReports reports).overlays, a.report.kind = .overlay := fun _ ↦ kind_eq
  rw [Layers.addAll, answers, List.foldl_append, layers]
  rw [List.foldl_ext _ (fun l a ↦ l.addFile a.report a.config) _ (l := (ofReports reports).files)]
  · apply List.foldl_ext
    intro l a ha
    rw [Layers.add, ho a ha]
  · intro l a ha
    rw [Layers.add, hf a ha]

private theorem Supply.ordered_ofReports {reports : List Report} (h : ∀ r ∈ reports, r.WellFormed) :
    (ofReports reports).Ordered := by
  intro a ha
  obtain ⟨r, hr, ha⟩ : ∃ r ∈ reports, r.answer? = some a := by
    rcases List.mem_append.mp ha with ha | ha
    · obtain ⟨r, hr, ha⟩ := List.mem_filterMap.mp ha
      exact ⟨r, (List.mem_filter.mp hr).1, ha⟩
    · obtain ⟨r, hr, ha⟩ := List.mem_filterMap.mp ha
      exact ⟨r, (List.mem_filter.mp hr).1, ha⟩
  rcases (h r hr).cases with ⟨e, -, hn⟩ | ⟨b, -, -, hb, ho⟩
  · rw [hn] at ha
    cases ha
  · obtain rfl := Option.some.inj (hb.symm.trans ha)
    exact ho

/-- A report is of the kind of its source. -/
theorem Source.kind_ask (w : World) (key : Option String) (s : Source) :
    (s.ask w key).1.kind = s.kind := by
  cases s <;> rfl

namespace Resolver

/-- What the sources of a resolver supply when they are asked. -/
def supply (r : Resolver) (w : World) (key : Option String) : Supply :=
  Supply.ofReports ((r.askAll w key).map Asked.report)

/-- All sources answer in good order or fail. -/
def WellFormed (r : Resolver) (w : World) (key : Option String) : Prop :=
  ∀ a ∈ r.askAll w key, a.report.WellFormed

instance (r : Resolver) (w : World) (key : Option String) : Decidable (r.WellFormed w key) :=
  inferInstanceAs (Decidable (∀ a ∈ r.askAll w key, a.report.WellFormed))

/-- A resolver over sources whose tables are known beforehand. -/
def ofTables (tables : List (String × SourceKind × Table)) : Resolver where
  sources := tables.map fun (name, kind, data) ↦ .fixed { name, kind, data }

/-- The reports of the sources that were asked. -/
theorem map_report_askAll (r : Resolver) (w : World) (key : Option String) :
    (r.askAll w key).map Asked.report = r.sources.map fun s ↦ (s.ask w key).1 := List.map_map

/-- The result of a resolution is that of its pass. -/
theorem result_resolve (r : Resolver) (w : World) (key : Option String)
    (default : Option Value) :
    (r.resolve w key default).1 = (Pass.run (reports (r.askAll w key)) key default).result := rfl

variable {r : Resolver} {w : World} {key : Option String}

/-- The answers of well-formed sources are ordered. -/
theorem WellFormed.ordered (h : r.WellFormed w key) : (r.supply w key).Ordered := by
  apply Supply.ordered_ofReports
  intro report hr
  obtain ⟨a, ha, rfl⟩ := List.mem_map.mp hr
  exact h a ha

/-- The reports of a pass are those of the sources that were asked. -/
theorem mem_reports {asked : List Asked} {report : Report} (h : report ∈ reports asked) :
    ∃ a ∈ asked, report = a.report := by
  have hm : report ∈ asked.map Asked.report := by
    rcases List.mem_append.mp h with hr | hr
    · exact (List.mem_filter.mp hr).1
    · exact (List.mem_filter.mp hr).1
  obtain ⟨a, ha, hr⟩ := List.mem_map.mp hm
  exact ⟨a, ha, hr.symm⟩

/-- The reports of well-formed sources are well formed, in whatever order. -/
theorem WellFormed.of_mem_reports (h : r.WellFormed w key) :
    ∀ report ∈ reports (r.askAll w key), report.WellFormed := by
  intro report hr
  obtain ⟨a, ha, rfl⟩ := mem_reports hr
  exact h a ha

/-- The answers in the reports of a pass are what the sources supply. -/
theorem filterMap_reports (r : Resolver) (w : World) (key : Option String) :
    (reports (r.askAll w key)).filterMap Report.answer? = (r.supply w key).answers := by
  rw [reports, List.filterMap_append]
  rfl

/-- The merge of a pass over well-formed sources. -/
theorem WellFormed.merge_layers (h : r.WellFormed w key) :
    (Pass.merge {} (reports (r.askAll w key))).layers = .ok (r.supply w key).layers := by
  rw [Pass.merge_layers h.of_mem_reports, filterMap_reports, supply, ← Supply.layers_ofReports]

/-- A resolution without a default yields what the answers determine. -/
theorem WellFormed.resolve_eq (h : r.WellFormed w key) :
    (r.resolve w key none).1 = .ok (r.supply w key).result := by
  rw [result_resolve, Pass.run, h.merge_layers]
  simp only [Pass.place_none]
  rfl

/-- The connections of a resolution are those that some source names. A field is that of the own
record, which the last file and all overlays make up, else the last root value of that key, if it is
a general parameter. -/
theorem resolve_connections (h : r.WellFormed w none) (hc : (r.supply w none).connected = true) :
    ∃ c, (r.resolve w none none).1 = .ok c ∧ Sorted c.connections ∧
      (∀ name, (get? name c.connections).isSome = (r.supply w none).names name) ∧
      ∀ name record, get? name c.connections = some record → ∀ key,
        (∀ v, get? key ((r.supply w none).record name) = some v → get? key record = some v) ∧
        (get? key ((r.supply w none).record name) = none →
          (∀ v, Parameter.isParameter key = true → v.isTable = false →
            (r.supply w none).last? (·.root? key) = some v → get? key record = some v) ∧
          (Parameter.isParameter key = false ∨ (r.supply w none).last? (·.root? key) = none →
            get? key record = none)) := by
  have ho := h.ordered
  refine ⟨_, h.resolve_eq, Supply.sorted_result_connections ho hc,
    Supply.isSome_result_connections ho hc, ?_⟩
  intro name record hr key
  rw [Supply.get?_result_field ho hc hr]
  exact ⟨fun v hv ↦ Supply.field?_of_own hv,
    fun hn ↦ ⟨fun v hp hv hl ↦ Supply.field?_of_last ho hn hp hv hl,
      fun hl ↦ Supply.field?_eq_none ho hn hl⟩⟩

/-- An overlay in front of a file: its account reaches the connection that only the file names. -/
theorem resolve_connections_overlay_first :
    ∃ c record, ((ofTables
      [("flags", .overlay, [("account", .string "a")]),
        ("base", .file, [("connections", .table [("dev", .table [("user", .string "u")])])])]).resolve
          {} none none).1 = .ok c ∧
      get? "dev" c.connections = some record ∧ get? "account" record = some (.string "a") ∧
      get? "port" record = none := by
  obtain ⟨c, hc, -, hnames, hfields⟩ := resolve_connections (r := ofTables
    [("flags", .overlay, [("account", .string "a")]),
      ("base", .file, [("connections", .table [("dev", .table [("user", .string "u")])])])])
    (w := {}) (by decide) (by decide)
  have hdev : (get? "dev" c.connections).isSome = true := by
    rw [hnames]
    decide
  obtain ⟨record, hr⟩ := Option.isSome_iff_exists.mp hdev
  refine ⟨c, record, hc, hr, ?_, ?_⟩
  · exact ((hfields _ _ hr "account").2 rfl).1 _ (by decide) rfl rfl
  · exact ((hfields _ _ hr "port").2 rfl).2 (Or.inr rfl)

/-- The root of a resolution holds what the roots of files and overlays make up. Where some source
names a connection, general parameters leave it unless an overlay has one in sight of a connection;
where none does, everything that may move makes up the default connection. -/
theorem resolve_root (h : r.WellFormed w none) :
    ∃ c, (r.resolve w none none).1 = .ok c ∧ Sorted c.root ∧
      ((r.supply w none).connected = true → ∀ key v, get? key c.root = some v ↔
        get? key (r.supply w none).root = some v ∧
          ¬ (Parameter.isParameter key = true ∧ v.isTable = false ∧
            ¬ (r.supply w none).Shown key)) ∧
      ((r.supply w none).connected = false →
        c.root = ((r.supply w none).root.filter fun e ↦ !Config.movesToDefault e) ∧
          c.connections =
            if ((r.supply w none).root.filter Config.movesToDefault).isEmpty then []
            else [(Parameter.defaultConnection,
              (r.supply w none).root.filter Config.movesToDefault)]) := by
  have ho := h.ordered
  refine ⟨_, h.resolve_eq, Supply.sorted_result_root ho, ?_, ?_⟩
  · intro hc key v
    rw [Supply.get?_result_root ho hc, isGeneral_iff]
    apply and_congr_right
    intro _
    constructor
    · rintro hs ⟨hp, hv, hn⟩
      exact hn (hs ⟨hp, hv⟩)
    · rintro hn ⟨hp, hv⟩
      exact not_not.mp fun hs ↦ hn ⟨hp, hv, hs⟩
  · intro hc
    rw [Supply.result_of_not_connected ho hc]
    exact ⟨rfl, rfl⟩

/-- A file's account leaves the root for its connection; one that an overlay adds stays as well. -/
theorem resolve_root_account_and_port :
    ∃ c, ((ofTables
      [("base", .file, [("account", .string "a"), ("connections", .table [("dev", .table [])])]),
        ("flags", .overlay, [("port", .int 1)])]).resolve {} none none).1 = .ok c ∧
      get? "account" c.root = none ∧ get? "port" c.root = some (.int 1) := by
  obtain ⟨c, hc, -, hroot, -⟩ := resolve_root (r := ofTables
    [("base", .file, [("account", .string "a"), ("connections", .table [("dev", .table [])])]),
      ("flags", .overlay, [("port", .int 1)])]) (w := {}) (by decide)
  have hroot := hroot (by decide)
  refine ⟨c, hc, ?_, (hroot "port" _).mpr ⟨rfl, by decide⟩⟩
  rw [Option.eq_none_iff_forall_ne_some]
  intro v hv
  obtain ⟨hv, hn⟩ := (hroot "account" v).mp hv
  obtain rfl := Option.some.inj hv
  exact hn (by decide)

end Resolver

end LayeredConfig
