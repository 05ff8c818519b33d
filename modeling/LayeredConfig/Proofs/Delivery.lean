import LayeredConfig.Proofs.Calls
import LayeredConfig.Proofs.Stream

/-!
# What observers get

However often a resolver is called, every call delivers one stream of events to each of its
observers, about its sources in processing order. Recorders see all of it. Counters that were
attached before the calls show how many there were and, of the last one, how often each thing
happened in its stream.
-/

namespace LayeredConfig

private theorem Observers.journal_notifyAll (o : Observers) (events : List Event) :
    (o.notifyAll events).journal =
      o.journal ++ events.flatMap fun e ↦ List.replicate o.recorders e := by
  rw [notifyAll]
  induction events generalizing o with
  | nil => exact (List.append_nil _).symm
  | cons e events ih =>
    rw [List.foldl_cons, ih, List.flatMap_cons, ← List.append_assoc]
    rfl

namespace Pass

variable {reports : List Report} {key : Option String} {default : Option Value}

private theorem Stream.unfinished {e : Error} {events : List Event}
    (h : Stream reports key default (.error e) events) :
    (∀ c, .finalized c ∉ events) ∧
      ∃ told, told <+: reports ∧
        ∀ c, Stream told key default (.ok c) (events ++ [.finalized c]) := by
  cases h with
  | @rejected told settling cause ht hs =>
    refine ⟨?_, reports, List.prefix_rfl, ?_⟩
    · intro c hc
      rcases List.mem_cons.mp hc with hc | hc
      · cases hc
      · rcases List.mem_append.mp hc with hc | hc
        · exact reporting_told ht _ hc
        · exact hs.closing _ hc
    · intro c
      have h : Stream reports key default (.ok c) _ := .completed ht hs .unused
      rw [List.append_nil] at h
      exact h
  | @stopped before after r told cause hr hb hm ht =>
    -- the form of a stream allows a pass that settles nothing
    refine ⟨?_, before, ⟨r :: after, hr.symm⟩, ?_⟩
    · intro c hc
      rcases List.mem_cons.mp hc with hc | hc
      · cases hc
      · exact reporting_told ht _ hc
    · intro c
      have h : Stream before key default (.ok c) _ := .completed ht (settling_nil before) .unused
      rw [List.append_nil, List.append_nil] at h
      exact h

end Pass

namespace Resolver

/-- The reports of a call are those of the sources, files before overlays. -/
theorem reports_askAll (r : Resolver) (w : World) (key : Option String) :
    reports (r.askAll w key) =
      (SourceKind.inOrder Source.kind r.sources).map fun s ↦ (s.ask w key).1 := by
  have hkind : ∀ kind, ((r.askAll w key).map Asked.report).filter (·.kind = kind) =
      (r.sources.filter (·.kind = kind)).map fun s ↦ (s.ask w key).1 := by
    intro kind
    rw [map_report_askAll, List.filter_map]
    congr 1
    apply List.filter_congr
    intro s _
    simp only [Function.comp_apply, s.kind_ask w key]
  rw [reports, hkind, hkind, SourceKind.inOrder, List.map_append]

private theorem passes_after {r : Resolver} {n : Telemetry} (h : r.observers.telemetry = some n)
    (calls : List Call) :
    ∃ m, (r.after calls).observers.telemetry = some m ∧ m.passes = n.passes + calls.length := by
  induction calls generalizing r n with
  | nil => exact ⟨n, h, rfl⟩
  | cons call calls ih =>
    obtain ⟨body, he, hreset⟩ := r.exists_body call.world call.key call.default
    have hnext := telemetry_resolve he hreset
    rw [h, Option.map_some] at hnext
    obtain ⟨m, hm, hp⟩ := ih hnext
    refine ⟨m, hm, ?_⟩
    rw [hp, List.length_cons, Telemetry.counting, Nat.add_assoc, Nat.add_comm 1]

/-- After any calls, the next one delivers its events to every recorder. They are a stream about the
sources, files before overlays, that ends with the configuration the call returns. A call that fails
delivers what a stream about its first sources has before its end. Counters that were attached before
the calls show their number, and of the last call how often each thing happened. -/
theorem resolve_delivers (r : Resolver) (calls : List Call) (w : World) (key : Option String)
    (default : Option Value) :
    let s := (r.attach .telemetry).after calls
    let sources := (SourceKind.inOrder Source.kind s.sources).map fun s ↦ (s.ask w key).1
    let events := s.events w key default
    let next := s.resolve w key default
    next.2.observers.journal =
        s.observers.journal ++ events.flatMap (fun e ↦ List.replicate s.observers.recorders e) ∧
      Pass.Stream sources key default next.1 events ∧
      (∀ e, next.1 = .error e → (∀ c, .finalized c ∉ events) ∧
        ∃ told, told <+: sources ∧
          ∀ c, Pass.Stream told key default (.ok c) (events ++ [.finalized c])) ∧
      next.2.observers.telemetry =
        some (({ passes := calls.length + 1 } : Telemetry).counting events) := by
  intro s sources events next
  have hstream : Pass.Stream sources key default next.1 events := by
    have hsources : sources = reports (s.askAll w key) := (s.reports_askAll w key).symm
    rw [hsources]
    exact Pass.stream_run _ key default
  refine ⟨Observers.journal_notifyAll _ _, hstream, ?_, ?_⟩
  · intro e he
    rw [he] at hstream
    exact hstream.unfinished
  · obtain ⟨n, hn, hp⟩ := passes_after (r := r.attach .telemetry) rfl calls
    obtain ⟨body, he, hreset⟩ := s.exists_body w key default
    have hevents : events = .reset :: body := he
    rw [telemetry_resolve he hreset, hn, Option.map_some, hp, Nat.zero_add, hevents,
      Telemetry.counting_reset]

end Resolver

end LayeredConfig
