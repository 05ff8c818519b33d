import LayeredConfig.Event

/-!
# Telemetry

Counters over the events of a pass. All but the number of passes begin anew with each pass.
-/

namespace LayeredConfig

/-- The counters. See `SPEC_FULL.md:183–185`, `TelemetryObserver`. -/
structure Telemetry where
  passes : Nat := 0
  consulted : Nat := 0
  failed : Nat := 0
  discovered : Nat := 0
  broadcasts : Nat := 0
  synthesized : Nat := 0
  defaults : Nat := 0
  deriving DecidableEq, Repr

/-- Count one event. A source that failed was consulted too. -/
def Telemetry.observe (t : Telemetry) : Event → Telemetry
  | .reset => { passes := t.passes + 1 }
  | .received .. => { t with consulted := t.consulted + 1 }
  | .discovered _ => { t with discovered := t.discovered + 1 }
  | .sourceFailed .. => { t with consulted := t.consulted + 1, failed := t.failed + 1 }
  | .broadcast .. => { t with broadcasts := t.broadcasts + 1 }
  | .synthesized .. => { t with synthesized := t.synthesized + 1 }
  | .defaultUsed .. => { t with defaults := t.defaults + 1 }
  | .finalized _ => t

end LayeredConfig
