import LayeredConfig.Config
import LayeredConfig.Report

/-!
# Events

What a pass tells its observers, in the order in which it happens. The audit trail and the counters
are folds over events.
-/

namespace LayeredConfig

/-- One thing that happens in a pass. See `SPEC_FULL.md:189–191`. -/
inductive Event where
  /-- A pass begins. -/
  | reset
  /-- A source answered with a table. -/
  | received (source : String) (kind : SourceKind) (data : Table)
  /-- One leaf of that table. -/
  | discovered (candidate : Candidate)
  /-- A source failed; the message holds no secrets. -/
  | sourceFailed (source message : String)
  /-- A free-standing parameter became a field of a connection. -/
  | broadcast (connection : String) (candidate : Candidate)
  /-- A connection was made up from free-standing parameters. -/
  | synthesized (connection : String) (keys : List String)
  /-- The caller's default filled a missing key. -/
  | defaultUsed (key : String) (value : Value)
  /-- The pass ends with a configuration. -/
  | finalized (config : Config)

/-- The arrival of a source's table, as a whole and leaf by leaf. -/
def Report.announce (r : Report) (t : Table) : List Event :=
  .received r.source r.kind t ::
    (Table.flatten t).map fun e ↦ .discovered (r.candidate e.1 e.2)

end LayeredConfig
