import LayeredConfig.Proofs.Attribution
import LayeredConfig.Proofs.Resolution

/-!
# Histories after a resolution

A tracker that follows a pass ends with what the candidates of the answers tell. So after a resolution
every leaf of the result has a history in which exactly one entry is used, and has its value, but for
the leaves where a general parameter is misattributed.
-/

namespace LayeredConfig

open Keyed (Sorted get?)

/-! ### Events that report -/

/-- Whether an event is about one source and what it supplies. -/
def Event.Reporting : Event → Prop
  | .received .. | .sourceFailed .. | .discovered _ | .broadcast .. => True
  | _ => False

/-- Following reporting events is recording their candidates. -/
theorem Tracker.foldl_observe {events : List Event} (h : ∀ e ∈ events, e.Reporting)
    (t : Tracker) :
    events.foldl observe t = (events.filterMap Event.candidate?).foldl record t := by
  induction events generalizing t with
  | nil => rfl
  | cons e events ih =>
    have he := h e List.mem_cons_self
    have ih := ih fun e' he' ↦ h e' (List.mem_cons_of_mem _ he')
    cases e with
    | received | sourceFailed | discovered | broadcast => exact ih _
    | _ => cases he

private theorem Layers.reporting_addOverlay (l : Layers) (r : Report) (c : Config) :
    ∀ e ∈ (l.addOverlay r c).2, e.Reporting := by
  rw [addOverlay_eq]
  intro e he
  obtain ⟨_, -, he⟩ := List.mem_flatMap.mp he
  obtain ⟨_, -, rfl⟩ := List.mem_map.mp he
  exact trivial

private theorem Report.reporting_announce (r : Report) (t : Table) :
    ∀ e ∈ r.announce t, e.Reporting := by
  intro e he
  rcases List.mem_cons.mp he with rfl | he
  · exact trivial
  · obtain ⟨_, -, rfl⟩ := List.mem_map.mp he
    exact trivial

private theorem Answer.filterMap_announce (a : Answer) :
    (a.report.announce a.data).filterMap Event.candidate? = a.discoveries := by
  rw [Report.announce, List.filterMap_cons_none rfl, List.filterMap_map, discoveries]
  exact congrFun List.filterMap_eq_map _

private theorem Layers.reporting_add (l : Layers) (r : Report) (c : Config) :
    ∀ e ∈ (l.add r c).2, e.Reporting := by
  rw [add]
  split
  · exact fun e he ↦ absurd he List.not_mem_nil
  · exact l.reporting_addOverlay r c

/-- Layers settle with broadcasts. -/
theorem Layers.exists_broadcast {l : Layers} {e : Event} (h : e ∈ l.settle.2) :
    ∃ connection c, e = .broadcast connection c := by
  rw [settle] at h
  split at h
  · cases h
  · obtain ⟨_, -, h⟩ := List.mem_flatMap.mp h
    obtain ⟨_, -, h⟩ := List.mem_filterMap.mp h
    obtain ⟨_, -, rfl⟩ := Option.map_eq_some_iff.mp h
    exact ⟨_, _, rfl⟩

/-- What happens when layers settle is reported. -/
theorem Layers.reporting_settle (l : Layers) : ∀ e ∈ l.settle.2, e.Reporting := by
  intro e he
  obtain ⟨_, _, rfl⟩ := exists_broadcast he
  exact trivial

/-! ### The events of a merge -/

/-- The candidates that are reported while answers are added, each in the way of its kind. -/
def Layers.trailAll (l : Layers) : List Answer → List Candidate
  | [] => []
  | a :: rest =>
    a.discoveries ++ (l.add a.report a.config).2.filterMap Event.candidate? ++
      trailAll (l.add a.report a.config).1 rest

/-- A merge only reports. -/
theorem Pass.reporting_merge (l : Layers) (reports : List Report) :
    ∀ e ∈ (merge l reports).events, e.Reporting := by
  induction reports generalizing l with
  | nil => exact fun e he ↦ absurd he List.not_mem_nil
  | cons r rest ih =>
    rw [merge]
    cases r.outcome with
    | error cause =>
      intro e he
      rcases List.mem_cons.mp he with rfl | he
      · exact trivial
      · exact ih l e he
    | ok t =>
      dsimp only
      cases Config.ofNested t with
      | error cause => exact fun e he ↦ absurd he List.not_mem_nil
      | ok c =>
        intro e he
        rcases List.mem_append.mp he with he | he
        · rcases List.mem_append.mp he with he | he
          · exact r.reporting_announce t e he
          · exact l.reporting_add r c e he
        · exact ih (l.add r c).1 e he

/-- The candidates of a merge of well-formed reports are those of their answers. -/
theorem Pass.merge_events {reports : List Report} (h : ∀ r ∈ reports, r.WellFormed)
    (l : Layers) :
    (merge l reports).events.filterMap Event.candidate? =
      l.trailAll (reports.filterMap Report.answer?) := by
  induction reports generalizing l with
  | nil => rfl
  | cons r rest ih =>
    have ih := ih fun r' hr' ↦ h r' (List.mem_cons_of_mem _ hr')
    rw [merge]
    rcases (h r List.mem_cons_self).cases with ⟨e, ho, hn⟩ | ⟨a, rfl, ho, hs, -⟩
    · rw [ho, List.filterMap_cons_none hn]
      exact ih l
    · rw [ho, List.filterMap_cons_some hs]
      dsimp only
      rw [a.split]
      change List.filterMap _ (_ ++ _ ++ _) = _
      rw [List.filterMap_append, List.filterMap_append, a.filterMap_announce, ih]
      rfl

private theorem Layers.trailAll_files (l : Layers) {files : List Answer}
    (h : ∀ a ∈ files, a.report.kind = .file) (rest : List Answer) :
    l.trailAll (files ++ rest) = files.flatMap Answer.discoveries ++
      (files.foldl (fun l a ↦ l.addFile a.report a.config) l).trailAll rest := by
  induction files generalizing l with
  | nil => rfl
  | cons a files ih =>
    have ha : l.add a.report a.config = (l.addFile a.report a.config, []) := by
      rw [add, h a List.mem_cons_self]
    rw [List.cons_append, trailAll, ha]
    dsimp only
    rw [List.filterMap_nil, List.append_nil, ih _ fun b hb ↦ h b (List.mem_cons_of_mem _ hb),
      List.flatMap_cons, List.foldl_cons, List.append_assoc]

private theorem Layers.trailAll_overlays (l : Layers) {overlays : List Answer}
    (h : ∀ a ∈ overlays, a.report.kind = .overlay) : l.trailAll overlays = l.trail overlays := by
  induction overlays generalizing l with
  | nil => rfl
  | cons a overlays ih =>
    have ha : l.add a.report a.config = l.addOverlay a.report a.config := by
      rw [add, h a List.mem_cons_self]
    rw [trailAll, trail, ha, ih _ fun b hb ↦ h b (List.mem_cons_of_mem _ hb)]
    rfl

/-- What is reported while the answers of reports are added is the trail of what they supply. -/
theorem Supply.trailAll_ofReports (reports : List Report) :
    ({} : Layers).trailAll (ofReports reports).answers = (ofReports reports).trail := by
  have hf : ∀ a ∈ (ofReports reports).files, a.report.kind = .file := fun _ ↦ kind_eq
  have ho : ∀ a ∈ (ofReports reports).overlays, a.report.kind = .overlay := fun _ ↦ kind_eq
  rw [answers, Layers.trailAll_files _ hf, Layers.trailAll_overlays _ ho, trail]

/-! ### The end of a pass -/

namespace Supply

variable {s : Supply}

/-- A connection is made up only if there is none and something moves to it. -/
theorem synthesize_eq (h : s.Ordered) :
    (Pass.synthesize s.layers.settle.1).2 =
      if s.connected || s.movable.isEmpty then []
      else [.synthesized Parameter.defaultConnection (Keyed.keys s.movable)] := by
  cases hc : s.connected with
  | true =>
    have he := isEmpty_eq (holds_layers h).named
    rw [hc, Bool.not_true] at he
    rw [settle_of_connected h hc, Pass.synthesize, Config.synthesize, List.isEmpty_map, he]
    rfl
  | false =>
    rw [settle_of_not_connected h hc, Pass.synthesize, Config.synthesize, movable]
    cases s.root.filter Config.movesToDefault with
    | nil => rfl
    | cons e rest => rfl

/-- Without a connection the histories of what moves are copied to the one that is made up. -/
theorem foldl_observe_synthesize (h : s.Ordered) (t : Tracker) :
    (Pass.synthesize s.layers.settle.1).2.foldl Tracker.observe t =
      if s.connected then t
      else t.replicate (Keyed.keys s.movable) Parameter.defaultConnection := by
  rw [synthesize_eq h]
  cases s.connected with
  | true => rfl
  | false =>
    cases s.movable with
    | nil => rfl
    | cons e rest => rfl

/-- A tracker that follows a pass until a connection is made up has what was tracked by then. -/
theorem foldl_observe_settled {reports : List Report} (h : ∀ r ∈ reports, r.WellFormed)
    (hs : s.Ordered) (ht : ({} : Layers).trailAll (reports.filterMap Report.answer?) = s.trail)
    (t : Tracker) :
    (.reset :: ((Pass.merge {} reports).events ++ (s.layers.settle.2 ++
      (Pass.synthesize s.layers.settle.1).2)) : List Event).foldl Tracker.observe t =
      s.tracked := by
  have hmerge := Pass.reporting_merge {} reports
  have htrail := Pass.merge_events h {}
  have htracked : s.tracked = (Pass.synthesize s.layers.settle.1).2.foldl Tracker.observe
      (s.settled.foldl Tracker.record (s.trail.foldl Tracker.record {})) := by
    rw [foldl_observe_synthesize hs, tracked, recorded, candidates, List.foldl_append]
  rw [List.foldl_cons, List.foldl_append, List.foldl_append, Tracker.foldl_observe hmerge, htrail,
    ht, Tracker.foldl_observe s.layers.reporting_settle, htracked]
  rfl

/-- A tracker that follows a pass ends with the result's leaves closed, after what is placed. -/
theorem foldl_observe_placed {reports : List Report} (h : ∀ r ∈ reports, r.WellFormed)
    (hs : s.Ordered) (hl : (Pass.merge {} reports).layers = .ok s.layers)
    (ht : ({} : Layers).trailAll (reports.filterMap Report.answer?) = s.trail)
    {key : Option String} {default : Option Value} {c : Config} {placed : List Event}
    (hp : Pass.place s.result key default = .ok (c, placed)) (t : Tracker) :
    (Pass.run reports key default).events.foldl Tracker.observe t =
      (placed.foldl Tracker.observe s.tracked).finalize c := by
  have hevents : (Pass.run reports key default).events =
      (.reset :: ((Pass.merge {} reports).events ++ (s.layers.settle.2 ++
        (Pass.synthesize s.layers.settle.1).2))) ++ (placed ++ [.finalized c]) := by
    rw [result] at hp
    rw [Pass.run, hl]
    dsimp only
    rw [hp]
    simp only [List.cons_append, List.append_assoc]
  rw [hevents, List.foldl_append, foldl_observe_settled h hs ht, List.foldl_append]
  rfl

/-- A tracker that follows a pass whose default has no place ends before anything is closed. -/
theorem foldl_observe_rejected {reports : List Report} (h : ∀ r ∈ reports, r.WellFormed)
    (hs : s.Ordered) (hl : (Pass.merge {} reports).layers = .ok s.layers)
    (ht : ({} : Layers).trailAll (reports.filterMap Report.answer?) = s.trail)
    {key : Option String} {default : Option Value} {e : Error}
    (hp : Pass.place s.result key default = .error e) (t : Tracker) :
    (Pass.run reports key default).events.foldl Tracker.observe t = s.tracked := by
  rw [result] at hp
  rw [Pass.run, hl]
  dsimp only
  rw [hp]
  exact foldl_observe_settled h hs ht t

/-- A tracker that follows a pass without a default ends with the result's leaves closed. -/
theorem foldl_observe_run {reports : List Report} (h : ∀ r ∈ reports, r.WellFormed)
    (hs : s.Ordered) (hl : (Pass.merge {} reports).layers = .ok s.layers)
    (ht : ({} : Layers).trailAll (reports.filterMap Report.answer?) = s.trail) (t : Tracker) :
    (Pass.run reports none none).events.foldl Tracker.observe t = s.tracked.finalize s.result :=
  foldl_observe_placed h hs hl ht (Pass.place_none s.result none) t

end Supply

/-- A tracker among the observers follows all events. -/
theorem Observers.history_notifyAll (o : Observers) (events : List Event) :
    (o.notifyAll events).history = o.history.map fun t ↦ events.foldl Tracker.observe t := by
  rw [notifyAll]
  induction events generalizing o with
  | nil =>
    change o.history = _
    cases o.history <;> rfl
  | cons e events ih =>
    rw [List.foldl_cons, ih, notify, Option.map_map]
    rfl

/-! ### Names of sources -/

private theorem sublist_sources (reports : List Report) :
    ((reports.filterMap Report.answer?).map Answer.source).Sublist (reports.map Report.source) := by
  induction reports with
  | nil => exact List.Sublist.slnil
  | cons r rest ih =>
    cases ha : r.answer? with
    | none =>
      rw [List.filterMap_cons_none ha]
      exact ih.cons _
    | some a =>
      obtain ⟨rfl, -⟩ := Report.eq_of_answer? ha
      rw [List.filterMap_cons_some ha]
      exact ih.cons_cons _

private theorem Supply.distinct_ofReports {reports : List Report}
    (h : (reports.map Report.source).Nodup) : (ofReports reports).Distinct := by
  have hkinds : (reports.filter (·.kind = .overlay)) =
      reports.filter fun r ↦ !decide (r.kind = .file) := by
    apply List.filter_congr
    intro r _
    cases r.kind <;> rfl
  have hperm := (List.filter_append_perm (·.kind = .file) reports).map Report.source
  rw [← hkinds] at hperm
  have hsub := sublist_sources
    (reports.filter (·.kind = .file) ++ reports.filter (·.kind = .overlay))
  rw [List.filterMap_append] at hsub
  exact (hperm.nodup_iff.mpr h).sublist hsub

namespace Source

private theorem name_load (s : FileSource) (found : Except FileError Node) :
    (s.load found).2.name = s.name := by
  have hparse : ∀ (s : FileSource) (n : Node), (s.parse n).2.name = s.name := by
    intro s n
    rw [FileSource.parse]
    split
    · rfl
    · split <;> rfl
  unfold FileSource.load
  split
  · rfl
  · rfl
  · split
    · dsimp only
      split
      · rfl
      · exact hparse _ _
    · exact hparse _ _

/-- A report is made out to the name of its source. -/
theorem source_ask (w : World) (key : Option String) (s : Source) :
    (s.ask w key).1.source = s.name := by
  cases s with
  | fixed s => rfl
  | flags s => rfl
  | environment s => rfl
  | file s => exact name_load s (w.files.find s.path)

end Source

/-! ### Resolution -/

/-- A report is plain if all keys of its table, where there is one, are plain. -/
def Report.Plain (r : Report) : Prop := ∀ t, r.outcome = .ok t → (Value.table t).Plain

instance (r : Report) : Decidable r.Plain :=
  match h : r.outcome with
  | .error e => .isTrue fun t ht ↦ by
    rw [h] at ht
    cases ht
  | .ok t =>
    decidable_of_iff (Value.table t).Plain
      ⟨fun hp t' ht ↦ by rw [← Except.ok.inj (h.symm.trans ht)]; exact hp, fun hp ↦ hp t h⟩

namespace Resolver

/-- All sources answer with plain keys or fail. -/
def Plain (r : Resolver) (w : World) (key : Option String) : Prop :=
  ∀ a ∈ r.askAll w key, a.report.Plain

instance (r : Resolver) (w : World) (key : Option String) : Decidable (r.Plain w key) :=
  inferInstanceAs (Decidable (∀ a ∈ r.askAll w key, a.report.Plain))

variable {r : Resolver} {w : World} {key : Option String}

/-- The answers of plain sources are plain. -/
theorem Plain.supply (h : r.Plain w key) : (r.supply w key).Plain := by
  intro a ha
  rw [← filterMap_reports] at ha
  obtain ⟨report, hr, ha⟩ := List.mem_filterMap.mp ha
  obtain ⟨rfl, ho⟩ := Report.eq_of_answer? ha
  obtain ⟨asked, hasked, hr⟩ := mem_reports hr
  rw [hr] at ho
  exact h asked hasked a.data ho

private theorem distinct_supply (h : (r.sources.map Source.name).Nodup) :
    (r.supply w key).Distinct := by
  have hs : ((r.askAll w key).map Asked.report).map Report.source = r.sources.map Source.name := by
    rw [askAll, List.map_map, List.map_map]
    apply List.map_congr_left
    intro s _
    exact s.source_ask w key
  apply Supply.distinct_ofReports
  rw [hs]
  exact h

/-- The trail of what sources answer is the trail of their supply. -/
theorem trailAll_askAll (r : Resolver) (w : World) (key : Option String) :
    ({} : Layers).trailAll ((reports (r.askAll w key)).filterMap Report.answer?) =
      (r.supply w key).trail := by
  rw [filterMap_reports]
  exact Supply.trailAll_ofReports _

/-- After a resolution a leaf of the result has a history with exactly one used entry, which has the
leaf's value, if and only if no general parameter is misattributed under its key. -/
theorem resolve_attributes (h : r.WellFormed w none) (hd : (r.sources.map Source.name).Nodup)
    (hp : r.Plain w none) (hh : r.observers.history.isSome = true) :
    ∃ c tracker, (r.resolve w none none).1 = .ok c ∧
      (r.resolve w none none).2.observers.history = some tracker ∧
      ∀ key v, get? key c.flatten = some v →
        ((∃ history, get? key tracker.histories = some history ∧
          ∃ e, history.entries.filter Entry.used = [e] ∧ e.value.same v = true) ↔
            ¬ (r.supply w none).MisattributedAt key) := by
  have ho := h.ordered
  obtain ⟨t, ht⟩ := Option.isSome_iff_exists.mp hh
  have htrail : ({} : Layers).trailAll ((reports (r.askAll w none)).filterMap Report.answer?) =
      (r.supply w none).trail := by
    rw [filterMap_reports]
    exact Supply.trailAll_ofReports _
  refine ⟨_, (r.supply w none).tracked.finalize (r.supply w none).result, h.resolve_eq, ?_, ?_⟩
  · change (r.observers.notifyAll
      (Pass.run (reports (r.askAll w none)) none none).events).history = _
    rw [Observers.history_notifyAll, ht, Option.map_some,
      Supply.foldl_observe_run h.of_mem_reports ho h.merge_layers htrail]
  · intro key v hv
    rw [← Supply.knows_iff ho (distinct_supply hd) hp.supply hv]
    exact (Supply.recording_tracked ho hp.supply).finalize_iff hv

/-- A file with a connection, and two overlays with a role. -/
def roleTwice : Resolver :=
  (ofTables
    [("base", .file, [("connections", .table [("a", .table [("account", .string "acct")])])]),
      ("env", .overlay, [("role", .string "R"), ("user", .string "env-user")]),
      ("flags", .overlay, [("role", .string "cli-role")])]).attach .history

/-- The role of the connection has a history with exactly one used entry, the later overlay's. -/
theorem resolve_attributes_role :
    ∃ tracker history e, (roleTwice.resolve {} none none).2.observers.history = some tracker ∧
      get? "connections.a.role" tracker.histories = some history ∧
      history.entries.filter Entry.used = [e] ∧ e.value.same (.string "cli-role") = true := by
  obtain ⟨c, tracker, hc, ht, hleaves⟩ := resolve_attributes (r := roleTwice) (w := {})
    (by decide) (by decide) (by decide) rfl
  have hleaf : get? "connections.a.role" c.flatten = some (.string "cli-role") := by
    obtain rfl := Except.ok.inj hc
    rfl
  have hfiles : ∀ a ∈ (roleTwice.supply {} none).files, a.config.root.isEmpty = true := by decide
  have hm : ¬ (roleTwice.supply {} none).MisattributedAt "connections.a.role" := by
    rintro ⟨name, field, -, -, before, file, after, v, w, hsplit, hr, -⟩
    have hroot := hfiles file (by rw [hsplit]; exact List.mem_append_right _ List.mem_cons_self)
    rw [Answer.root?, List.isEmpty_iff.mp hroot] at hr
    cases hr
  obtain ⟨history, hh, e, he, hs⟩ := (hleaves _ _ hleaf).mpr hm
  exact ⟨tracker, history, e, ht, hh, he, hs⟩

/-- A file with an account at its root and another one in a connection that a second file replaces. -/
def accountReplaced : Resolver :=
  (ofTables
    [("base", .file, [("account", .string "v"),
      ("connections", .table [("dev", .table [("account", .string "w")])])]),
      ("local", .file, [("connections", .table [("dev", .table [("user", .string "u")])])])]).attach
    .history

/-- The account at the root fills the connection, but the history of the field has the replaced one
only, which is not used. -/
theorem resolve_misattributes_account :
    ∃ c tracker history, (accountReplaced.resolve {} none none).1 = .ok c ∧
      (accountReplaced.resolve {} none none).2.observers.history = some tracker ∧
      get? "connections.dev.account" c.flatten = some (.string "v") ∧
      get? "connections.dev.account" tracker.histories = some history ∧
      history.entries.filter Entry.used = [] :=
  ⟨_, _, _, rfl, rfl, rfl, rfl, rfl⟩

end Resolver

end LayeredConfig
