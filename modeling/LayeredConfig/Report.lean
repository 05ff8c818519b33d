import LayeredConfig.Candidate
import LayeredConfig.Error

/-!
# Reports

What one source answers when it is asked: a table of values or an error, the diagnostics it has
collected, and the texts of values that it converted. A pass sees sources through their reports only.
-/

namespace LayeredConfig

/-- The answer of one source. See `SPEC_FULL.md:91–97`. -/
structure Report where
  source : String
  kind : SourceKind
  outcome : Except Error Table
  notices : List Diagnostic := []
  rawText : String → Option String := fun _ ↦ none

namespace Report

/-- One of the reported values as a candidate. -/
def candidate (r : Report) (key : String) (value : Value) : Candidate :=
  Candidate.new key value r.source r.kind (r.rawText key)

/-- Whether the source failed. See `SPEC_FULL.md:100–101`. -/
def failed (r : Report) : Bool :=
  match r.outcome with
  | .error _ => true
  | .ok _ => false

end Report

end LayeredConfig
