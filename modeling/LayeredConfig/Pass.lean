import LayeredConfig.Layers
import LayeredConfig.Secret.Message

/-!
# Passes

A pass merges the reports of all sources, in processing order, into one configuration. A source that
fails is reported and passed over; one whose table breaks the rules for connections ends the pass,
and the sources after it count as not asked. At the end a default may be placed under a key that
nothing supplied.
-/

namespace LayeredConfig.Pass

/-- The merge of some reports: the layers or the error that ended it, what happened, and how many
sources were asked. -/
structure Merged where
  layers : Except Error Layers
  events : List Event := []
  diagnostics : List Diagnostic := []
  consulted : Nat := 0

/-- The same merge after one more report in front. -/
def Merged.after (m : Merged) (events : List Event) (diagnostics : List Diagnostic) : Merged :=
  { layers := m.layers
    events := events ++ m.events
    diagnostics := diagnostics ++ m.diagnostics
    consulted := m.consulted + 1 }

/-- Merge reports in order. See `SPEC_FULL.md:148–161`, Phases A and B. -/
def merge (l : Layers) : List Report → Merged
  | [] => { layers := .ok l }
  | r :: rest =>
    match r.outcome with
    | .error e =>
      let message := Secret.sanitize e.message
      (merge l rest).after [.sourceFailed r.source message]
        (r.notices ++ [⟨r.source, .error, message⟩])
    | .ok t =>
      match Config.ofNested t with
      | .error cause =>
        { layers := .error (.malformedOutput r.source cause)
          diagnostics := r.notices
          consulted := 1 }
      | .ok c =>
        let (l, events) := l.add r c
        (merge l rest).after (r.announce t ++ events) r.notices

/-- Place a default under a key that is not there. See `SPEC_FULL.md:134–135`. -/
def place (c : Config) : Option String → Option Value → Except Error (Config × List Event)
  | some key, some v =>
    if (c.lookup key).isSome then .ok (c, [])
    else
      match c.set key v with
      | .ok c => .ok (c, [.defaultUsed key v])
      | .error cause => .error (.validation cause)
  | _, _ => .ok (c, [])

/-- The connection made up where there is none, if any parameter moves into it.
See `SPEC_FULL.md:163–166`, Phase C. -/
def synthesize (c : Config) : Config × List Event :=
  let (keys, c) := c.synthesize
  (c, if keys.isEmpty then [] else [.synthesized Parameter.defaultConnection keys])

/-- What a pass comes to. -/
structure Outcome where
  result : Except Error Config
  events : List Event
  diagnostics : List Diagnostic
  consulted : Nat

/-- Run a pass over the reports of all sources in processing order. See `SPEC_FULL.md:146–170`, the
four phases. -/
def run (reports : List Report) (key : Option String) (default : Option Value) : Outcome :=
  let m := merge {} reports
  let outcome (result : Except Error Config) (events : List Event) : Outcome :=
    { result
      events := .reset :: (m.events ++ events)
      diagnostics := m.diagnostics
      consulted := m.consulted }
  match m.layers with
  | .error e => outcome (.error e) []
  | .ok l =>
    let (c, settled) := l.settle
    let (c, synthesized) := synthesize c
    match place c key default with
    | .error e => outcome (.error e) (settled ++ synthesized)
    | .ok (c, placed) => outcome (.ok c) (settled ++ synthesized ++ placed ++ [.finalized c])

end LayeredConfig.Pass
