import LayeredConfig.Proofs.Runs

/-!
# Failures in isolation

A source that fails leaves its traces in the diagnostics and the counters, and nowhere else: without
it the pass has the same result, and a tracker ends with the same histories. The events of the pass
without failures are those of the whole pass, less the failures.
-/

namespace LayeredConfig

/-- Whether an event tells of a source that failed. -/
def Event.isFailure : Event → Bool
  | .sourceFailed .. => true
  | _ => false

private theorem Event.Closing.isFailure {e : Event} (h : e.Closing) : e.isFailure = false := by
  cases e with
  | broadcast | synthesized | defaultUsed => rfl
  | _ => cases h

private theorem Report.failed_of_error {r : Report} {e : Error} (ho : r.outcome = .error e) :
    r.failed = true := by
  rw [failed, ho]

private theorem Report.failed_of_ok {r : Report} {t : Table} (ho : r.outcome = .ok t) :
    r.failed = false := by
  rw [failed, ho]

/-! ### Events without failures -/

/-- The events that are no failures. -/
def Event.kept (events : List Event) : List Event := events.filter fun e ↦ !e.isFailure

private theorem Event.kept_eq {events : List Event} (h : ∀ e ∈ events, e.isFailure = false) :
    kept events = events := by
  rw [kept, List.filter_eq_self]
  intro e he
  rw [h e he, Bool.not_false]

private theorem Event.kept_append (events later : List Event) :
    kept (events ++ later) = kept events ++ kept later := List.filter_append events later

private theorem Pass.not_failure_of_answer (l : Layers) (r : Report) (t : Table) (c : Config) :
    ∀ e ∈ r.announce t ++ (l.add r c).2, e.isFailure = false := by
  intro e he
  rcases List.mem_append.mp he with he | he
  · rcases List.mem_cons.mp he with rfl | he
    · rfl
    · obtain ⟨_, -, rfl⟩ := List.mem_map.mp he
      rfl
  · unfold Layers.add at he
    split at he
    · cases he
    · rw [Layers.addOverlay_eq] at he
      obtain ⟨_, -, he⟩ := List.mem_flatMap.mp he
      obtain ⟨_, -, rfl⟩ := List.mem_map.mp he
      rfl

private theorem Pass.not_failure_of_conclude (l : Layers) (key : Option String)
    (default : Option Value) : ∀ e ∈ (conclude l key default).2, e.isFailure = false := by
  rcases conclude_cases l key default with ⟨_, closing, hc, h⟩ | ⟨c, closing, hc, h⟩
  · rw [hc]
    exact fun e he ↦ (h e he).isFailure
  · rw [hc]
    intro e he
    rcases List.mem_append.mp he with he | he
    · exact (h e he).isFailure
    · rw [List.mem_singleton.mp he]
      rfl

/-! ### A merge without failures -/

namespace Pass

/-- The reports that are no failures. -/
def kept (reports : List Report) : List Report := reports.filter fun r ↦ !r.failed

variable {r : Report} {rest : List Report}

private theorem kept_failed {e : Error} (ho : r.outcome = .error e) :
    kept (r :: rest) = kept rest := by
  simp [kept, Report.failed_of_error ho]

private theorem kept_of_ok {t : Table} (ho : r.outcome = .ok t) :
    kept (r :: rest) = r :: kept rest := by
  simp [kept, Report.failed_of_ok ho]

/-- Without failures a merge comes to the same layers. -/
theorem merge_kept_layers (l : Layers) (reports : List Report) :
    (merge l (kept reports)).layers = (merge l reports).layers := by
  induction reports generalizing l with
  | nil => rfl
  | cons r rest ih =>
    cases r.step with
    | failed e ho =>
      rw [kept_failed ho, merge_failed ho]
      exact ih l
    | malformed t cause ho hs => rw [kept_of_ok ho, merge_malformed ho hs, merge_malformed ho hs]
    | answered t c ho hs =>
      rw [kept_of_ok ho, merge_answered ho hs, merge_answered ho hs]
      exact ih (l.add r c).1

/-- The events of a merge without failures are the other events. -/
theorem merge_kept_events (l : Layers) (reports : List Report) :
    (merge l (kept reports)).events = Event.kept (merge l reports).events := by
  induction reports generalizing l with
  | nil => rfl
  | cons r rest ih =>
    cases r.step with
    | failed e ho =>
      rw [kept_failed ho, merge_failed ho]
      exact ih l
    | malformed t cause ho hs =>
      rw [kept_of_ok ho, merge_malformed ho hs, merge_malformed ho hs]
      rfl
    | answered t c ho hs =>
      have hanswer := Event.kept_eq (not_failure_of_answer l r t c)
      rw [kept_of_ok ho, merge_answered ho hs, merge_answered ho hs]
      simp only [Merged.after, Event.kept_append _ (merge (l.add r c).1 rest).events, hanswer, ih]

private theorem countP_merge_events (l : Layers) (reports : List Report) :
    (merge l reports).events.countP Event.isFailure = (reached reports).countP Report.failed := by
  induction reports generalizing l with
  | nil => rfl
  | cons r rest ih =>
    cases r.step with
    | failed e ho =>
      rw [merge_failed ho, reached_of_none (Report.malformed?_of_error ho),
        List.countP_cons_of_pos (Report.failed_of_error ho), ← ih l]
      exact List.countP_cons_of_pos rfl
    | malformed t cause ho hs =>
      rw [merge_malformed ho hs, reached_of_some (Report.malformed?_of_not_split ho hs),
        List.countP_singleton, Report.failed_of_ok ho]
      rfl
    | answered t c ho hs =>
      have hquiet : (r.announce t ++ (l.add r c).2).countP Event.isFailure = 0 := by
        rw [List.countP_eq_zero]
        intro e he
        rw [not_failure_of_answer l r t c e he]
        exact Bool.false_ne_true
      rw [merge_answered ho hs, reached_of_none (Report.malformed?_of_split ho hs),
        List.countP_cons_of_neg (by simp [Report.failed_of_ok ho]), ← ih (l.add r c).1]
      simp only [Merged.after, List.countP_append, hquiet, Nat.zero_add]

/-- Without failures a merge comes to the other reports. -/
theorem reached_kept (reports : List Report) : reached (kept reports) = kept (reached reports) := by
  induction reports with
  | nil => rfl
  | cons r rest ih =>
    cases r.step with
    | failed e ho =>
      rw [kept_failed ho, reached_of_none (Report.malformed?_of_error ho), kept_failed ho, ih]
    | malformed t cause ho hs =>
      have hm := Report.malformed?_of_not_split ho hs
      rw [kept_of_ok ho, reached_of_some hm, reached_of_some hm, kept_of_ok ho]
      rfl
    | answered t c ho hs =>
      have hm := Report.malformed?_of_split ho hs
      rw [kept_of_ok ho, reached_of_none hm, reached_of_none hm, kept_of_ok ho, ih]

/-! ### A pass without failures -/

variable (reports : List Report) (key : Option String) (default : Option Value)

/-- Without failures a pass has the same result. -/
theorem run_kept_result :
    (run (kept reports) key default).result = (run reports key default).result := by
  have hl := merge_kept_layers {} reports
  cases h : (merge {} reports).layers with
  | error e => rw [run_of_error h, run_of_error (hl.trans h)]
  | ok l => rw [run_of_ok h, run_of_ok (hl.trans h)]

/-- The events of a pass without failures are the other events. -/
theorem run_kept_events :
    (run (kept reports) key default).events = Event.kept (run reports key default).events := by
  have hl := merge_kept_layers {} reports
  have he := merge_kept_events {} reports
  cases h : (merge {} reports).layers with
  | error e =>
    rw [run_of_error h, run_of_error (hl.trans h), he]
    rfl
  | ok l =>
    have hend := Event.kept_eq (not_failure_of_conclude l key default)
    rw [run_of_ok h, run_of_ok (hl.trans h), he]
    change _ = .reset :: Event.kept (_ ++ _)
    rw [Event.kept_append, hend]

/-- A pass begins once, and tells of as many failures as it comes to. -/
theorem run_events :
    ∃ events, (run reports key default).events = .reset :: events ∧ Event.reset ∉ events ∧
      events.countP Event.isFailure = (reached reports).countP Report.failed := by
  obtain ⟨closing, hclosing, hrun⟩ := run_cases reports key default
  have hm : Event.reset ∉ (merge {} reports).events := fun h ↦ reporting_merge {} reports _ h
  have hreset : Event.reset ∉ closing := fun h ↦ hclosing _ h
  have hquiet : closing.countP Event.isFailure = 0 := by
    rw [List.countP_eq_zero]
    intro e he
    rw [(hclosing e he).isFailure]
    exact Bool.false_ne_true
  rw [← countP_merge_events {}]
  rcases hrun with ⟨e, -, he⟩ | ⟨c, -, he⟩
  · refine ⟨_, he, ?_, ?_⟩
    · simp [hm, hreset]
    · simp [hquiet]
  · refine ⟨_, he, ?_, ?_⟩
    · simp [hm, hreset]
    · simp [hquiet, Event.isFailure]

end Pass

/-! ### What observers make of failures -/

/-- A tracker takes nothing from failures. -/
theorem Tracker.foldl_observe_kept (events : List Event) (t : Tracker) :
    (Event.kept events).foldl observe t = events.foldl observe t := by
  induction events generalizing t with
  | nil => rfl
  | cons e events ih =>
    cases e with
    | sourceFailed source message => exact ih t
    | _ => exact ih _

namespace Telemetry

/-- Counters with some failures more. -/
def addFailures (t : Telemetry) (n : Nat) : Telemetry :=
  { t with consulted := t.consulted + n, failed := t.failed + n }

private theorem observe_addFailures {e : Event} (h : e ≠ .reset) (t : Telemetry) (n : Nat) :
    (t.addFailures n).observe e = (t.observe e).addFailures n := by
  cases e with
  | reset => exact absurd rfl h
  | received | sourceFailed => simp only [observe, addFailures, Nat.add_right_comm]
  | _ => rfl

private theorem foldl_addFailures {events : List Event} (h : Event.reset ∉ events) (t : Telemetry)
    (n : Nat) :
    events.foldl observe (t.addFailures n) = (events.foldl observe t).addFailures n := by
  induction events generalizing t with
  | nil => rfl
  | cons e events ih =>
    rw [List.mem_cons, not_or] at h
    rw [List.foldl_cons, observe_addFailures (Ne.symm h.1), ih h.2, List.foldl_cons]

/-- Within a pass the counters differ by the failures. -/
theorem foldl_observe_kept {events : List Event} (h : Event.reset ∉ events) (t : Telemetry) :
    events.foldl observe t =
      ((Event.kept events).foldl observe t).addFailures (events.countP Event.isFailure) := by
  induction events generalizing t with
  | nil => rfl
  | cons e events ih =>
    rw [List.mem_cons, not_or] at h
    cases e with
    | sourceFailed source message =>
      have hstep : t.observe (.sourceFailed source message) = t.addFailures 1 := rfl
      rw [List.foldl_cons, hstep, foldl_addFailures h.2, ih h.2, List.countP_cons_of_pos rfl]
      rfl
    | reset => exact absurd rfl h.1
    | _ => exact ih h.2 _

end Telemetry

/-- Counters among the observers count all events. -/
theorem Observers.telemetry_notifyAll (o : Observers) (events : List Event) :
    (o.notifyAll events).telemetry = o.telemetry.map fun t ↦ events.foldl Telemetry.observe t := by
  rw [notifyAll]
  induction events generalizing o with
  | nil =>
    change o.telemetry = _
    cases o.telemetry <;> rfl
  | cons e events ih =>
    rw [List.foldl_cons, ih, notify, Option.map_map]
    rfl

namespace Resolver

variable (r : Resolver) (w : World) (key : Option String) (default : Option Value)

/-- The resolver without the sources that fail when they are asked. -/
def withoutFailing : Resolver :=
  { r with sources := r.sources.filter fun s ↦ !(s.ask w key).1.failed }

private theorem reports_withoutFailing :
    reports ((r.withoutFailing w key).askAll w key) = Pass.kept (reports (r.askAll w key)) := by
  simp only [reports, map_report_askAll, withoutFailing, Pass.kept, List.filter_append,
    List.filter_map, List.filter_filter, Function.comp_def, Bool.and_comm]

/-- Without the sources that fail a resolution has the same result and the same histories. The
diagnostics of the whole are those of the rest with, at the place of each source that fails, its own
ones and one error with its name and the text of the error, secrets masked. The counters differ by
the number of sources that fail before the resolution comes to its end. -/
theorem resolve_withoutFailing :
    (r.resolve w key default).1 = ((r.withoutFailing w key).resolve w key default).1 ∧
      (r.resolve w key default).2.observers.history =
        ((r.withoutFailing w key).resolve w key default).2.observers.history ∧
      (r.resolve w key default).2.diagnostics =
        (r.reached w key).flatMap (fun report ↦ report.notices ++ report.complaint?.toList) ∧
      ((r.withoutFailing w key).resolve w key default).2.diagnostics =
        ((r.reached w key).filter fun report ↦ !report.failed).flatMap Report.notices ∧
      (r.resolve w key default).2.observers.telemetry =
        ((r.withoutFailing w key).resolve w key default).2.observers.telemetry.map fun t ↦
          t.addFailures ((r.reached w key).countP Report.failed) := by
  have hreports := r.reports_withoutFailing w key
  have hevents : (r.withoutFailing w key).events w key default =
      Event.kept (r.events w key default) := by
    rw [events, hreports]
    exact Pass.run_kept_events _ key default
  have hreached : (r.withoutFailing w key).reached w key = Pass.kept (r.reached w key) := by
    rw [reached, hreports]
    exact Pass.reached_kept _
  refine ⟨?_, ?_, r.diagnostics_resolve w key default, ?_, ?_⟩
  · rw [result_resolve, result_resolve, hreports, Pass.run_kept_result]
  · rw [observers_resolve, observers_resolve, Observers.history_notifyAll,
      Observers.history_notifyAll, hevents]
    simp only [Tracker.foldl_observe_kept]
    rfl
  · rw [diagnostics_resolve, hreached]
    apply List.flatMap_congr
    intro report hr
    have hkept := (List.mem_filter.mp hr).2
    cases ho : report.outcome with
    | error e => simp [Report.failed_of_error ho] at hkept
    | ok t => exact Report.diagnosed_of_ok ho
  · obtain ⟨events, he, hreset, hcount⟩ :
        ∃ events, r.events w key default = .reset :: events ∧ Event.reset ∉ events ∧
          events.countP Event.isFailure = (r.reached w key).countP Report.failed :=
      Pass.run_events (reports (r.askAll w key)) key default
    rw [observers_resolve, observers_resolve, Observers.telemetry_notifyAll,
      Observers.telemetry_notifyAll, Option.map_map, hevents, he, ← hcount]
    congr 1
    funext t
    exact Telemetry.foldl_observe_kept hreset _

end Resolver

end LayeredConfig
