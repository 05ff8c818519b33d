import LayeredConfig.Proofs.Nested
import LayeredConfig.Proofs.Runs

/-!
# Resolving a result again

A result is complete: with connections, each has a field for every general parameter at the root;
without any, nothing at the root may move. A source that supplies a complete configuration in nested
form, as the only one, changes nothing: there is nothing to fill in, nothing to make up.
-/

namespace LayeredConfig

open Keyed (Sorted get?)

/-- A configuration that neither fills connections nor makes one up. -/
structure Config.Complete (c : Config) : Prop where
  root : (Value.table c.root).Ordered
  branch : Keyed.get? connectionsKey c.root = none
  connections : Sorted c.connections
  record : ∀ name record, Keyed.get? name c.connections = some record →
    (Value.table record).Ordered
  field : ∀ key v, Keyed.get? key c.root = some v → isGeneral (key, v) = true →
    ∀ name record, Keyed.get? name c.connections = some record →
      (Keyed.get? key record).isSome = true
  settled : c.connections = [] → c.root.filter Config.movesToDefault = []

/-- A complete configuration is well formed. -/
theorem Config.Complete.wellFormed {c : Config} (h : c.Complete) : c.WellFormed where
  root := h.root
  branch := h.branch
  records := by
    apply Value.ordered_table (h.connections.map fun _ record ↦ Value.table record)
    intro name v hv
    have hv : Keyed.get? name (Table.ofRecords c.connections) = some v := hv
    rw [Table.get?_ofRecords] at hv
    obtain ⟨record, hr, rfl⟩ := Option.map_eq_some_iff.mp hv
    exact h.record name record hr

namespace Supply

variable {s : Supply}

/-! ### Results are complete -/

private theorem isEligible_of_isParameter {key : String} (h : Parameter.isParameter key = true) :
    Parameter.isEligible key = true := by
  have hall : ∀ key ∈ Parameter.all, Parameter.isEligible key = true := by decide
  exact hall key (List.contains_iff_mem.mp h)

private theorem ordered_result_root (h : s.Ordered) : (Value.table s.result.root).Ordered := by
  apply Value.ordered_table (sorted_result_root h)
  intro key v hv
  exact ordered_of_root h (get?_root_of_result h hv)

/-- The result of ordered answers is complete. -/
theorem complete_result (h : s.Ordered) : s.result.Complete where
  root := ordered_result_root h
  branch := by
    rw [Option.eq_none_iff_forall_ne_some]
    intro v hv
    have hr := get?_root_of_result h hv
    rw [get?_root_connections h] at hr
    cases hr
  connections := sorted_connections h
  record := fun _ _ hr ↦ ordered_of_connection h hr
  field := by
    intro key v hv hg name record hr
    cases hc : s.connected with
    | true =>
      have hgeneral : s.general? key = some v := by
        rw [general?_eq_some_iff]
        exact ⟨get?_root_of_result h hv, isGeneral_iff.mp hg⟩
      rw [get?_result_field h hc hr, field?, hgeneral]
      simp
    | false =>
      -- A parameter that could have moved would not be at the root any more.
      rw [result_of_not_connected h hc, s.sorted_root.get?_filter, Option.filter_eq_some_iff,
        Config.movesToDefault] at hv
      obtain ⟨hp, ht⟩ := isGeneral_iff.mp hg
      rw [isEligible_of_isParameter hp, ht] at hv
      cases hv.2
  settled := by
    intro hempty
    cases hc : s.connected with
    | true =>
      have hnone : ∀ name, s.names name = false := by
        intro name
        rw [← isSome_result_connections h hc, hempty]
        rfl
      rw [(connected_eq_false_iff s).mpr hnone] at hc
      cases hc
    | false =>
      rw [result_of_not_connected h hc, List.filter_filter]
      simp

/-! ### A single answer -/

/-- What one answer supplies alone. -/
def ofAnswer (a : Answer) : Supply :=
  match a.report.kind with
  | .file => { files := [a] }
  | .overlay => { overlays := [a] }

variable {a : Answer}

private theorem ofReports_of_answer? {r : Report} (h : r.answer? = some a) :
    ofReports [r] = ofAnswer a := by
  obtain ⟨rfl, -⟩ := Report.eq_of_answer? h
  rw [ofAnswer]
  cases hk : a.report.kind <;> simp [ofReports, hk, h]

/-- The only answer is all that there is. -/
theorem answers_ofAnswer (a : Answer) : (ofAnswer a).answers = [a] := by
  rw [ofAnswer]
  cases a.report.kind <;> rfl

/-- An ordered answer alone is an ordered supply. -/
theorem ordered_ofAnswer (h : a.Ordered) : (ofAnswer a).Ordered := by
  intro b hb
  rw [answers_ofAnswer] at hb
  obtain rfl := List.mem_singleton.mp hb
  exact h

/-- The only answer has the only root. -/
theorem root_ofAnswer (h : a.Ordered) : (ofAnswer a).root = a.config.root := by
  rw [ofAnswer]
  cases a.report.kind with
  | overlay => exact Table.deepMerge_nil h.sorted_root
  | file =>
    apply (Keyed.sorted_nil.overlay _).ext h.sorted_root
    intro key
    rw [Keyed.get?_overlay _ h.sorted_root, Keyed.get?_nil, Option.or_none]

private theorem record_ofAnswer (h : a.Ordered) (name : String) :
    (ofAnswer a).record name = (a.record? name).getD [] := by
  rw [ofAnswer]
  cases a.report.kind with
  | file => simp [record]
  | overlay =>
    simp only [record, List.reverse_nil, List.findSome?_nil, Option.getD_none, List.foldl_cons,
      List.foldl_nil]
    cases hr : a.record? name with
    | none => rfl
    | some fields => exact Table.deepMerge_nil (h.record? hr).sorted

private theorem names_ofAnswer (a : Answer) (name : String) :
    (ofAnswer a).names name = (a.record? name).isSome := by
  rw [names, answers_ofAnswer, List.any_cons, List.any_nil, Bool.or_false]

/-- There are connections if the only answer has some. -/
theorem connected_ofAnswer (a : Answer) :
    (ofAnswer a).connected = !a.config.connections.isEmpty := by
  rw [connected, answers_ofAnswer, List.any_cons, List.any_nil, Bool.or_false]

private theorem exists_general_of_reaching (h : s.Ordered) {name key : String} {v : Value}
    (hv : (s.offer? name key).or (s.general? key) = some v) :
    ∃ a ∈ s.answers, a.general? key = some v := by
  rcases Option.or_eq_some_iff.mp hv with ho | ⟨-, hg⟩
  · obtain ⟨a, ha, hg⟩ := exists_of_offer? ho
    exact ⟨a, List.mem_append_right _ ha, hg⟩
  · obtain ⟨hr, hg⟩ := (general?_eq_some_iff s key v).mp hg
    obtain ⟨before, a, after, hs, ha, -⟩ :=
      last?_eq_some_iff.mp ((get?_root_eq_some_iff h hg.2).mp hr)
    refine ⟨a, ?_, Answer.general?_eq_some_iff.mpr ⟨ha, isGeneral_iff.mpr hg⟩⟩
    rw [hs]
    exact List.mem_append_right _ List.mem_cons_self

/-! ### A complete answer -/

/-- A complete answer alone keeps its connections. -/
theorem connections_of_complete (ho : a.Ordered) (h : a.config.Complete) :
    (ofAnswer a).result.connections = a.config.connections := by
  have hs := ordered_ofAnswer ho
  cases hc : (ofAnswer a).connected with
  | false =>
    have hempty : a.config.connections = [] := by
      rw [connected_ofAnswer, Bool.not_eq_false', List.isEmpty_iff] at hc
      exact hc
    rw [result_of_not_connected hs hc, root_ofAnswer ho, h.settled hempty, hempty]
    rfl
  | true =>
    apply (sorted_result_connections hs hc).ext ho.sorted_connections
    intro name
    have hsome := isSome_result_connections hs hc name
    rw [names_ofAnswer] at hsome
    cases hr : a.record? name with
    | none =>
      rw [hr, Option.isSome_none, Option.isSome_eq_false_iff, Option.isNone_iff_eq_none] at hsome
      rw [hsome]
      exact hr.symm
    | some fields =>
      rw [hr, Option.isSome_some, Option.isSome_iff_exists] at hsome
      obtain ⟨record, hrecord⟩ := hsome
      have hfields : Keyed.get? name a.config.connections = some fields := hr
      rw [hrecord, hfields, Option.some.injEq]
      apply (sorted_result_record hs hc hrecord).ext (ho.record? hr).sorted
      intro key
      rw [get?_result_field hs hc hrecord, field?, record_ofAnswer ho, hr, Option.getD_some]
      cases hk : get? key fields with
      | some v => rw [Option.some_or]
      | none =>
        rw [Option.none_or, Option.eq_none_iff_forall_ne_some]
        intro v hv
        obtain ⟨b, hb, hg⟩ := exists_general_of_reaching hs hv
        rw [answers_ofAnswer] at hb
        obtain rfl := List.mem_singleton.mp hb
        obtain ⟨hroot, hg⟩ := Answer.general?_eq_some_iff.mp hg
        have hfield := h.field key v hroot hg name fields hfields
        rw [hk] at hfield
        cases hfield

private theorem result_of_complete (ho : a.Ordered) (h : a.config.Complete)
    (hk : a.report.kind = .overlay) : (ofAnswer a).result = a.config := by
  have hs := ordered_ofAnswer ho
  have hroot : (ofAnswer a).result.root = a.config.root := by
    apply (sorted_result_root hs).ext ho.sorted_root
    intro key
    cases hc : (ofAnswer a).connected with
    | false =>
      have hempty : a.config.connections = [] := by
        rw [connected_ofAnswer, Bool.not_eq_false', List.isEmpty_iff] at hc
        exact hc
      have hnone := List.filter_eq_nil_iff.mp (h.settled hempty)
      have hall : (a.config.root.filter fun e ↦ !Config.movesToDefault e) = a.config.root := by
        rw [List.filter_eq_self]
        intro e he
        simpa using hnone e he
      rw [result_of_not_connected hs hc, root_ofAnswer ho, hall]
    | true =>
      ext v
      rw [get?_result_root hs hc, root_ofAnswer ho, and_iff_left_iff_imp]
      intro hv hg
      rw [ofAnswer, hk] at hc ⊢
      refine ⟨[], a, [], rfl, ?_, hc⟩
      rw [Answer.general?_eq_some_iff.mpr ⟨hv, hg⟩, Option.isSome_some]
  have hconnections := connections_of_complete ho h
  exact congrArg₂ Config.mk hroot hconnections

private theorem synthesize_of_complete (ho : a.Ordered) (h : a.config.Complete) :
    (Pass.synthesize (ofAnswer a).layers.settle.1).2 = [] := by
  rw [synthesize_eq (ordered_ofAnswer ho), movable, root_ofAnswer ho, connected_ofAnswer]
  cases hc : a.config.connections with
  | nil =>
    rw [h.settled hc]
    rfl
  | cons e rest => rfl

end Supply

/-! ### The second resolution -/

private theorem Pass.mem_conclude_of_synthesized {l : Layers} {connection : String}
    {keys : List String} (h : .synthesized connection keys ∈ (conclude l none none).2) :
    .synthesized connection keys ∈ (synthesize l.settle.1).2 := by
  have hsettle : .synthesized connection keys ∉ l.settle.2 := by
    intro hs
    obtain ⟨_, _, he⟩ := Layers.exists_broadcast hs
    cases he
  have hevents : (conclude l none none).2 =
      l.settle.2 ++ (synthesize l.settle.1).2 ++ [] ++
        [.finalized (synthesize l.settle.1).1] := rfl
  rw [hevents] at h
  simpa [hsettle] using h

namespace Resolver

private theorem exists_answer_of_complete {again : Resolver} {w : World} {s : Source} {c : Config}
    (h : c.Complete) (hs : again.sources = [s])
    (hd : (s.discover w none).1 = .ok c.toNested) :
    again.WellFormed w none ∧
      ∃ a : Answer, a.Ordered ∧ a.config = c ∧ a.report.kind = s.kind ∧
        again.supply w none = Supply.ofAnswer a := by
  have ho : (s.ask w none).1.outcome = .ok c.toNested := hd
  have hasked : (again.askAll w none).map Asked.report = [(s.ask w none).1] := by
    rw [map_report_askAll, hs]
    rfl
  have hwell : (s.ask w none).1.WellFormed := by
    intro t ht
    obtain rfl := Except.ok.inj (ho.symm.trans ht)
    exact ⟨h.wellFormed.ordered_toNested, c, h.wellFormed.ofNested_toNested⟩
  refine ⟨?_, ?_⟩
  · intro a ha
    have hr := List.mem_map_of_mem (f := Asked.report) ha
    rw [hasked, List.mem_singleton] at hr
    rw [hr]
    exact hwell
  · rcases hwell.cases with ⟨e, he, -⟩ | ⟨a, hr, hdata, hanswer, hordered⟩
    · rw [ho] at he
      cases he
    · have hnested : a.data = c.toNested := Except.ok.inj (hdata.symm.trans ho)
      have hsplit := a.split
      rw [hnested, h.wellFormed.ofNested_toNested] at hsplit
      refine ⟨a, hordered, (Except.ok.inj hsplit).symm, ?_, ?_⟩
      · rw [hr, s.kind_ask]
      · rw [supply, hasked, Supply.ofReports_of_answer? hanswer]

/-- Resolving a result again changes nothing. As the only source, an overlay that supplies the
result in nested form yields the result, and a file that does yields its connections. No connection
is made up on the way. -/
theorem resolve_again {r : Resolver} {w : World} (h : r.WellFormed w none) :
    ∃ c, (r.resolve w none none).1 = .ok c ∧
      ∀ (again : Resolver) (w' : World) (s : Source), again.sources = [s] →
        (s.discover w' none).1 = .ok c.toNested →
          (s.kind = .overlay → (again.resolve w' none none).1 = .ok c) ∧
            (s.kind = .file → ∃ c', (again.resolve w' none none).1 = .ok c' ∧
              c'.connections = c.connections) ∧
            ∀ connection keys, .synthesized connection keys ∉ again.events w' none none := by
  have hcomplete := Supply.complete_result h.ordered
  refine ⟨_, h.resolve_eq, ?_⟩
  intro again w' s hs hd
  obtain ⟨hwell, a, ho, hc, hk, hsupply⟩ := exists_answer_of_complete hcomplete hs hd
  have hresolve := hwell.resolve_eq
  have hlayers := hwell.merge_layers
  rw [← hc] at hcomplete ⊢
  rw [hsupply] at hresolve hlayers
  refine ⟨?_, ?_, ?_⟩
  · intro hoverlay
    rw [hresolve, Supply.result_of_complete ho hcomplete (hk.trans hoverlay)]
  · intro _
    exact ⟨_, hresolve, Supply.connections_of_complete ho hcomplete⟩
  · intro connection keys he
    rw [events, Pass.run_of_ok hlayers] at he
    rcases List.mem_cons.mp he with he | he
    · cases he
    · rcases List.mem_append.mp he with he | he
      · exact Pass.reporting_merge _ _ _ he
      · have hmade := Pass.mem_conclude_of_synthesized he
        rw [Supply.synthesize_of_complete ho hcomplete] at hmade
        cases hmade

/-- A file's account fills its connection. A flag's port, shown to it, stays at the root. Both are
there again after a second resolution. -/
theorem resolve_again_account_and_port :
    ∃ c, ((ofTables
        [("base", .file,
          [("account", .string "a"), ("connections", .table [("dev", .table [])])]),
          ("flags", .overlay, [("port", .int 1)])]).resolve {} none none).1 = .ok c ∧
      ((ofTables [("again", .overlay, c.toNested)]).resolve {} none none).1 = .ok c := by
  obtain ⟨c, hc, hagain⟩ := resolve_again (r := ofTables
    [("base", .file, [("account", .string "a"), ("connections", .table [("dev", .table [])])]),
      ("flags", .overlay, [("port", .int 1)])]) (w := {}) (by decide)
  exact ⟨c, hc, (hagain (ofTables [("again", .overlay, c.toNested)]) {} _ rfl rfl).1 rfl⟩

end Resolver

end LayeredConfig
