import LayeredConfig.Proofs.Isolation

/-!
# One call after another

A resolver is called again and again, and a call may end half way. What a call comes to depends on
what its sources answer and on nothing that an earlier call has left: the first event of a pass
clears what observers have collected, all but the number of passes.
-/

namespace LayeredConfig

/-- A call of a resolver: the world it finds, the key it asks for, and the caller's default. -/
structure Call where
  world : World := {}
  key : Option String := none
  default : Option Value := none

/-- A resolver after some calls, whatever they came to. -/
def Resolver.after (r : Resolver) (calls : List Call) : Resolver :=
  calls.foldl (fun r call ↦ (r.resolve call.world call.key call.default).2) r

/-! ### The end of a merge -/

namespace Pass

/-- Reports that a merge does not come to have no part in it. -/
theorem merge_reached (l : Layers) (reports : List Report) :
    merge l (reached reports) = merge l reports := by
  induction reports generalizing l with
  | nil => rfl
  | cons r rest ih =>
    cases r.step with
    | failed e ho =>
      rw [reached_of_none (Report.malformed?_of_error ho), merge_failed ho, merge_failed ho, ih]
    | malformed t cause ho hs =>
      rw [reached_of_some (Report.malformed?_of_not_split ho hs), merge_malformed ho hs,
        merge_malformed ho hs]
    | answered t c ho hs =>
      rw [reached_of_none (Report.malformed?_of_split ho hs), merge_answered ho hs,
        merge_answered ho hs, ih]

/-- Nor have they any part in the pass. -/
theorem run_reached (reports : List Report) (key : Option String) (default : Option Value) :
    run (reached reports) key default = run reports key default := by
  rw [run, run, merge_reached]

end Pass

/-! ### What counters tell -/

namespace Telemetry

/-- Counters after some events of a pass: each has grown by the number of its events. -/
def counting (t : Telemetry) (events : List Event) : Telemetry where
  passes := t.passes
  consulted := t.consulted + events.countP (· matches .received .. | .sourceFailed ..)
  failed := t.failed + events.countP (· matches .sourceFailed ..)
  discovered := t.discovered + events.countP (· matches .discovered _)
  broadcasts := t.broadcasts + events.countP (· matches .broadcast ..)
  synthesized := t.synthesized + events.countP (· matches .synthesized ..)
  defaults := t.defaults + events.countP (· matches .defaultUsed ..)

/-- The beginning of a pass is not counted with its other events. -/
theorem counting_reset (t : Telemetry) (events : List Event) :
    t.counting (.reset :: events) = t.counting events := by
  simp [counting]

/-- Counters that follow the events of a pass count them. -/
theorem foldl_observe {events : List Event} (h : Event.reset ∉ events) (t : Telemetry) :
    events.foldl observe t = t.counting events := by
  induction events generalizing t with
  | nil => rfl
  | cons e events ih =>
    rw [List.mem_cons, not_or] at h
    rw [List.foldl_cons, ih h.2]
    cases e with
    | reset => exact absurd rfl h.1
    | _ => simp [observe, counting, Nat.add_assoc, Nat.add_comm 1]

end Telemetry

namespace Resolver

/-! ### What a call leaves -/

variable (r : Resolver) (w : World) (key : Option String) (default : Option Value)

/-- A call begins with the event that clears observers, and this comes once. -/
theorem exists_body :
    ∃ body, r.events w key default = .reset :: body ∧ Event.reset ∉ body := by
  obtain ⟨body, he, hreset, -⟩ := Pass.run_events (reports (r.askAll w key)) key default
  exact ⟨body, he, hreset⟩

variable {r w key default} {body : List Event}

/-- A tracker is left with what the call itself has told. -/
theorem history_resolve (he : r.events w key default = .reset :: body) :
    (r.resolve w key default).2.observers.history =
      r.observers.history.map fun _ ↦ body.foldl Tracker.observe {} := by
  rw [observers_resolve, Observers.history_notifyAll, he]
  rfl

/-- Counters are left with the numbers of the call itself, and one pass more. -/
theorem telemetry_resolve (he : r.events w key default = .reset :: body)
    (hreset : Event.reset ∉ body) :
    (r.resolve w key default).2.observers.telemetry =
      r.observers.telemetry.map fun t ↦
        ({ passes := t.passes + 1 } : Telemetry).counting body := by
  rw [observers_resolve, Observers.telemetry_notifyAll, he]
  congr 1
  funext t
  exact Telemetry.foldl_observe hreset _

/-- Two resolvers whose sources answer alike as far as they are asked run the same pass. -/
theorem run_alike {r₁ r₂ : Resolver} {w₁ w₂ : World} (h : r₁.reached w₁ key = r₂.reached w₂ key)
    (default : Option Value) :
    Pass.run (reports (r₁.askAll w₁ key)) key default =
      Pass.run (reports (r₂.askAll w₂ key)) key default := by
  rw [← Pass.run_reached, ← Pass.run_reached (reports (r₂.askAll w₂ key))]
  exact congrArg (Pass.run · key default) h

/-- A call leaves nothing for the next. Two resolvers may have run any passes and may have any
observers: if their sources answer alike as far as they are asked, then they come to the same result
and the same diagnostics, trackers of both have the same histories, and counters of both have the
same numbers but for the passes. -/
theorem resolve_alike (r₁ r₂ : Resolver) (before₁ before₂ : List Call) (w₁ w₂ : World)
    (key : Option String) (default : Option Value)
    (h : (r₁.after before₁).reached w₁ key = (r₂.after before₂).reached w₂ key) :
    ((r₁.after before₁).resolve w₁ key default).1 =
        ((r₂.after before₂).resolve w₂ key default).1 ∧
      ((r₁.after before₁).resolve w₁ key default).2.diagnostics =
        ((r₂.after before₂).resolve w₂ key default).2.diagnostics ∧
      (∀ t₁ t₂,
        ((r₁.after before₁).resolve w₁ key default).2.observers.history = some t₁ →
        ((r₂.after before₂).resolve w₂ key default).2.observers.history = some t₂ → t₁ = t₂) ∧
      ∀ n₁ n₂,
        ((r₁.after before₁).resolve w₁ key default).2.observers.telemetry = some n₁ →
        ((r₂.after before₂).resolve w₂ key default).2.observers.telemetry = some n₂ →
          n₁ = { n₂ with passes := n₁.passes } := by
  have hrun := run_alike h default
  obtain ⟨body, he₁, hreset⟩ := (r₁.after before₁).exists_body w₁ key default
  have he₂ : (r₂.after before₂).events w₂ key default = .reset :: body := by
    rw [← he₁, events, events, hrun]
  refine ⟨?_, ?_, ?_, ?_⟩
  · rw [result_resolve, result_resolve, hrun]
  · rw [diagnostics_resolve, diagnostics_resolve, h]
  · intro t₁ t₂ h₁ h₂
    rw [history_resolve he₁] at h₁
    rw [history_resolve he₂] at h₂
    obtain ⟨_, -, rfl⟩ := Option.map_eq_some_iff.mp h₁
    obtain ⟨_, -, rfl⟩ := Option.map_eq_some_iff.mp h₂
    rfl
  · intro n₁ n₂ h₁ h₂
    rw [telemetry_resolve he₁ hreset] at h₁
    rw [telemetry_resolve he₂ hreset] at h₂
    obtain ⟨_, -, rfl⟩ := Option.map_eq_some_iff.mp h₁
    obtain ⟨_, -, rfl⟩ := Option.map_eq_some_iff.mp h₂
    rfl

/-- A file whose connections are none, which only shows if all of it is asked for. -/
def themed : Resolver :=
  ofTables [("base", .file, [("connections", .int 1), ("theme", .string "dark")])]

/-- A resolver that was stopped by its file, and then failed to place a default, comes to the same
theme as one that was never called, and to the same histories. -/
theorem resolve_alike_after_failures :
    let called := (themed.attach .history).attach .telemetry
    let calls : List Call := [{}, { key := some "connections.dev", default := some (.int 1) }]
    let fresh := themed.attach .history
    (∃ cause, (called.resolve {} none none).1 = .error (.malformedOutput "base" cause)) ∧
      (∃ cause, ((called.after [{}]).resolve {} (some "connections.dev") (some (.int 1))).1 =
        .error (.validation cause)) ∧
      ((called.after calls).resolve {} (some "theme") none).1 =
        (fresh.resolve {} (some "theme") none).1 ∧
      ((called.after calls).resolve {} (some "theme") none).2.observers.history =
        (fresh.resolve {} (some "theme") none).2.observers.history := by
  obtain ⟨hresult, -, hhistory, -⟩ := resolve_alike
    ((themed.attach .history).attach .telemetry) (themed.attach .history)
    [{}, { key := some "connections.dev", default := some (.int 1) }] [] {} {} (some "theme") none
    rfl
  exact ⟨⟨_, rfl⟩, ⟨_, rfl⟩, hresult, congrArg some (hhistory _ _ rfl rfl)⟩

end Resolver

end LayeredConfig
