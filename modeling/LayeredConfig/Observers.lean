import LayeredConfig.History.Tracker
import LayeredConfig.Telemetry

/-!
# Observers

Whoever follows the events of a resolver: at most one tracker, at most one set of counters, and any
number of listeners. Listeners that record write into one journal.
-/

namespace LayeredConfig

/-- What can be attached. See `SPEC_FULL.md:191–192`, `Observer`. -/
inductive Observer where
  | history
  | telemetry
  | recorder
  | silent
  deriving DecidableEq, Repr

/-- What is attached, and the journal of the recorders. See `SPEC_FULL.md:187–192`. -/
structure Observers where
  history : Option Tracker := none
  telemetry : Option Telemetry := none
  recorders : Nat := 0
  silent : Nat := 0
  journal : List Event := []

namespace Observers

/-- Attach an observer. A new tracker or set of counters takes the place of the one before.
See `SPEC_FULL.md:137–138`, `attach_observer`. -/
def attach (o : Observers) : Observer → Observers
  | .history => { o with history := some {} }
  | .telemetry => { o with telemetry := some {} }
  | .recorder => { o with recorders := o.recorders + 1 }
  | .silent => { o with silent := o.silent + 1 }

/-- The number of listeners. -/
def listeners (o : Observers) : Nat := o.recorders + o.silent

/-- Deliver one event to everyone. -/
def notify (o : Observers) (e : Event) : Observers :=
  { o with
    history := o.history.map (·.observe e)
    telemetry := o.telemetry.map (·.observe e)
    journal := o.journal ++ List.replicate o.recorders e }

/-- Deliver events in order. -/
def notifyAll (o : Observers) (events : List Event) : Observers := events.foldl notify o

end Observers

end LayeredConfig
