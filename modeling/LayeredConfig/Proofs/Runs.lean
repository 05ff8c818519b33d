import LayeredConfig.Proofs.Histories

/-!
# Runs of a pass

A pass takes its reports one by one, and each is one of three: a failure, a table that cannot be
split, or a table that can. It comes to all reports up to the first of the second kind. What happens
after the merge depends on the layers only.
-/

namespace LayeredConfig

open Keyed (get?)

namespace Report

/-- What a report is to a pass. -/
inductive Step (r : Report) : Prop where
  | failed (e : Error) (ho : r.outcome = .error e)
  | malformed (t : Table) (cause : Malformed) (ho : r.outcome = .ok t)
      (hs : Config.ofNested t = .error cause)
  | answered (t : Table) (c : Config) (ho : r.outcome = .ok t) (hs : Config.ofNested t = .ok c)

/-- Every report is one of the three. -/
theorem step (r : Report) : r.Step := by
  cases ho : r.outcome with
  | error e => exact .failed e ho
  | ok t =>
    cases hs : Config.ofNested t with
    | error cause => exact .malformed t cause ho hs
    | ok c => exact .answered t c ho hs

/-- Why the table of a report cannot be split, if it has one that cannot. -/
def malformed? (r : Report) : Option Malformed :=
  match r.outcome with
  | .error _ => none
  | .ok t =>
    match Config.ofNested t with
    | .error cause => some cause
    | .ok _ => none

/-- A failure has no table. -/
theorem malformed?_of_error {r : Report} {e : Error} (ho : r.outcome = .error e) :
    r.malformed? = none := by
  rw [malformed?, ho]

/-- A table that cannot be split is malformed for the same cause. -/
theorem malformed?_of_not_split {r : Report} {t : Table} {cause : Malformed}
    (ho : r.outcome = .ok t) (hs : Config.ofNested t = .error cause) :
    r.malformed? = some cause := by
  rw [malformed?, ho]
  dsimp only
  rw [hs]

/-- A table that can be split is not malformed. -/
theorem malformed?_of_split {r : Report} {t : Table} {c : Config} (ho : r.outcome = .ok t)
    (hs : Config.ofNested t = .ok c) : r.malformed? = none := by
  rw [malformed?, ho]
  dsimp only
  rw [hs]

/-- The diagnostic that a failure makes. -/
def complaint? (r : Report) : Option Diagnostic :=
  match r.outcome with
  | .error e => some ⟨r.source, .error, Secret.sanitize e.message⟩
  | .ok _ => none

/-- The diagnostics that come with a report: first those that the source has collected. -/
def diagnosed (r : Report) : List Diagnostic := r.notices ++ r.complaint?.toList

/-- A report is no failure if it has a table. -/
theorem diagnosed_of_ok {r : Report} {t : Table} (ho : r.outcome = .ok t) :
    r.diagnosed = r.notices := by
  rw [diagnosed, complaint?, ho]
  exact List.append_nil _

end Report

namespace Pass

variable {r : Report} {rest reports : List Report} {l : Layers}

/-! ### One report of a merge -/

/-- A failure is noted and passed over. -/
theorem merge_failed {e : Error} (ho : r.outcome = .error e) :
    merge l (r :: rest) = (merge l rest).after
      [.sourceFailed r.source (Secret.sanitize e.message)] r.diagnosed := by
  rw [merge, ho, Report.diagnosed, Report.complaint?, ho]
  rfl

/-- A table that cannot be split ends the merge. -/
theorem merge_malformed {t : Table} {cause : Malformed} (ho : r.outcome = .ok t)
    (hs : Config.ofNested t = .error cause) :
    merge l (r :: rest) =
      { layers := .error (.malformedOutput r.source cause)
        diagnostics := r.diagnosed
        consulted := 1 } := by
  rw [merge, ho, Report.diagnosed_of_ok ho]
  dsimp only
  rw [hs]

/-- A table that can be split is announced and added to the layers. -/
theorem merge_answered {t : Table} {c : Config} (ho : r.outcome = .ok t)
    (hs : Config.ofNested t = .ok c) :
    merge l (r :: rest) =
      (merge (l.add r c).1 rest).after (r.announce t ++ (l.add r c).2) r.diagnosed := by
  rw [merge, ho, Report.diagnosed_of_ok ho]
  dsimp only
  rw [hs]

/-! ### The reports that a merge comes to -/

/-- The reports up to the first one whose table cannot be split. -/
def reached : List Report → List Report
  | [] => []
  | r :: rest => if r.malformed?.isSome then [r] else r :: reached rest

/-- A merge comes on from a report without such a table. -/
theorem reached_of_none (h : r.malformed? = none) : reached (r :: rest) = r :: reached rest := by
  rw [reached, h, Option.isSome_none, if_neg Bool.false_ne_true]

/-- A merge does not come on from a table that cannot be split. -/
theorem reached_of_some {cause : Malformed} (h : r.malformed? = some cause) :
    reached (r :: rest) = [r] := by
  rw [reached, h, Option.isSome_some, if_pos rfl]

/-- The sources that were asked are those whose reports the merge came to. -/
theorem merge_consulted (l : Layers) (reports : List Report) :
    (merge l reports).consulted = (reached reports).length := by
  induction reports generalizing l with
  | nil => rfl
  | cons r rest ih =>
    cases r.step with
    | failed e ho =>
      rw [merge_failed ho, reached_of_none (Report.malformed?_of_error ho), List.length_cons,
        ← ih l]
      rfl
    | malformed t cause ho hs =>
      rw [merge_malformed ho hs, reached_of_some (Report.malformed?_of_not_split ho hs)]
      rfl
    | answered t c ho hs =>
      rw [merge_answered ho hs, reached_of_none (Report.malformed?_of_split ho hs),
        List.length_cons, ← ih (l.add r c).1]
      rfl

/-- The diagnostics of a merge are those that come with the reports it came to. -/
theorem merge_diagnostics (l : Layers) (reports : List Report) :
    (merge l reports).diagnostics = (reached reports).flatMap Report.diagnosed := by
  induction reports generalizing l with
  | nil => rfl
  | cons r rest ih =>
    cases r.step with
    | failed e ho =>
      rw [merge_failed ho, reached_of_none (Report.malformed?_of_error ho), List.flatMap_cons,
        ← ih l]
      rfl
    | malformed t cause ho hs =>
      rw [merge_malformed ho hs, reached_of_some (Report.malformed?_of_not_split ho hs),
        List.flatMap_singleton]
    | answered t c ho hs =>
      rw [merge_answered ho hs, reached_of_none (Report.malformed?_of_split ho hs),
        List.flatMap_cons, ← ih (l.add r c).1]
      rfl

/-! ### The end of a pass -/

/-- What is left to do once all reports are merged: the result, and what happens on the way. -/
def conclude (l : Layers) (key : Option String) (default : Option Value) :
    Except Error Config × List Event :=
  match place (synthesize l.settle.1).1 key default with
  | .error e => (.error e, l.settle.2 ++ (synthesize l.settle.1).2)
  | .ok (c, placed) =>
    (.ok c, l.settle.2 ++ (synthesize l.settle.1).2 ++ placed ++ [.finalized c])

/-- A pass whose merge was ended ends with its error. -/
theorem run_of_error {e : Error} (h : (merge {} reports).layers = .error e) (key : Option String)
    (default : Option Value) :
    run reports key default =
      { result := .error e
        events := .reset :: (merge {} reports).events
        diagnostics := (merge {} reports).diagnostics
        consulted := (merge {} reports).consulted } := by
  rw [run, h]
  dsimp only
  rw [List.append_nil]

/-- A pass whose merge was not ended concludes from the layers. -/
theorem run_of_ok (h : (merge {} reports).layers = .ok l) (key : Option String)
    (default : Option Value) :
    run reports key default =
      { result := (conclude l key default).1
        events := .reset :: ((merge {} reports).events ++ (conclude l key default).2)
        diagnostics := (merge {} reports).diagnostics
        consulted := (merge {} reports).consulted } := by
  rw [run, h, conclude]
  dsimp only
  cases place (synthesize l.settle.1).1 key default <;> rfl

/-- Diagnostics are those of the merge, whatever it leads to. -/
theorem run_diagnostics (reports : List Report) (key : Option String) (default : Option Value) :
    (run reports key default).diagnostics = (reached reports).flatMap Report.diagnosed := by
  rw [← merge_diagnostics {}]
  cases h : (merge {} reports).layers with
  | error e => rw [run_of_error h]
  | ok l => rw [run_of_ok h]

/-- So is the number of sources that were asked. -/
theorem run_consulted (reports : List Report) (key : Option String) (default : Option Value) :
    (run reports key default).consulted = (reached reports).length := by
  rw [← merge_consulted {}]
  cases h : (merge {} reports).layers with
  | error e => rw [run_of_error h]
  | ok l => rw [run_of_ok h]

end Pass

/-- Whether an event belongs to the end of a pass, before the result is there. -/
def Event.Closing : Event → Prop
  | .broadcast .. | .synthesized .. | .defaultUsed .. => True
  | _ => False

namespace Pass

private theorem closing_synthesize (c : Config) : ∀ e ∈ (synthesize c).2, e.Closing := by
  intro e he
  rw [synthesize] at he
  dsimp only at he
  split at he
  · cases he
  · obtain rfl := List.mem_singleton.mp he
    exact trivial

private theorem closing_place {c c' : Config} {key : Option String} {default : Option Value}
    {placed : List Event} (h : place c key default = .ok (c', placed)) :
    ∀ e ∈ placed, e.Closing := by
  unfold place at h
  split at h
  · split at h
    · cases h
      exact fun e he ↦ absurd he List.not_mem_nil
    · split at h
      · cases h
        intro e he
        obtain rfl := List.mem_singleton.mp he
        exact trivial
      · cases h
  · cases h
    exact fun e he ↦ absurd he List.not_mem_nil

/-- A pass concludes with an error, or with a configuration that is told last. -/
theorem conclude_cases (l : Layers) (key : Option String) (default : Option Value) :
    (∃ e closing, conclude l key default = (.error e, closing) ∧ ∀ ev ∈ closing, ev.Closing) ∨
      ∃ c closing, conclude l key default = (.ok c, closing ++ [.finalized c]) ∧
        ∀ ev ∈ closing, ev.Closing := by
  have hmade : ∀ ev ∈ l.settle.2 ++ (synthesize l.settle.1).2, ev.Closing := by
    intro ev hev
    rcases List.mem_append.mp hev with hev | hev
    · obtain ⟨_, _, rfl⟩ := Layers.exists_broadcast hev
      exact trivial
    · exact closing_synthesize l.settle.1 ev hev
  rw [conclude]
  cases hp : place (synthesize l.settle.1).1 key default with
  | error e => exact Or.inl ⟨e, _, rfl, hmade⟩
  | ok placed =>
    refine Or.inr ⟨placed.1, _, rfl, ?_⟩
    intro ev hev
    rcases List.mem_append.mp hev with hev | hev
    · exact hmade ev hev
    · exact closing_place hp ev hev

/-- A pass begins, reports, and closes; a configuration is told last. -/
theorem run_cases (reports : List Report) (key : Option String) (default : Option Value) :
    ∃ closing : List Event, (∀ e ∈ closing, e.Closing) ∧
      ((∃ e, (run reports key default).result = .error e ∧
          (run reports key default).events =
            .reset :: ((merge {} reports).events ++ closing)) ∨
        ∃ c, (run reports key default).result = .ok c ∧
          (run reports key default).events =
            .reset :: ((merge {} reports).events ++ (closing ++ [.finalized c]))) := by
  cases hl : (merge {} reports).layers with
  | error e =>
    refine ⟨[], fun e he ↦ absurd he List.not_mem_nil, Or.inl ⟨e, ?_, ?_⟩⟩
    · rw [run_of_error hl]
    · rw [run_of_error hl, List.append_nil]
  | ok l =>
    rw [run_of_ok hl]
    rcases conclude_cases l key default with ⟨e, closing, hend, h⟩ | ⟨c, closing, hend, h⟩
    · exact ⟨closing, h, Or.inl ⟨e, by rw [hend], by rw [hend]⟩⟩
    · exact ⟨closing, h, Or.inr ⟨c, by rw [hend], by rw [hend]⟩⟩

end Pass

namespace Resolver

variable (r : Resolver) (w : World) (key : Option String) (default : Option Value)

/-- What a resolution tells the observers. -/
def events : List Event := (Pass.run (reports (r.askAll w key)) key default).events

/-- The reports that a resolution comes to, in processing order. -/
def reached : List Report := Pass.reached (reports (r.askAll w key))

/-- A resolution tells the observers all events of its pass. -/
theorem observers_resolve :
    (r.resolve w key default).2.observers = r.observers.notifyAll (r.events w key default) := rfl

/-- The diagnostics of a resolution are those that come with the reports it came to. -/
theorem diagnostics_resolve :
    (r.resolve w key default).2.diagnostics = (r.reached w key).flatMap Report.diagnosed :=
  Pass.run_diagnostics _ key default

end Resolver

end LayeredConfig
