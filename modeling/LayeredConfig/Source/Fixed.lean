import LayeredConfig.Candidate
import LayeredConfig.Error
import LayeredConfig.Table

/-!
# Fixed sources

A source whose data is known beforehand, for programs that embed the library. It can be told to fail,
always or on some calls, and has diagnostics to hand out once.
-/

namespace LayeredConfig

/-- A source with data of its own. -/
structure FixedSource where
  name : String
  kind : SourceKind
  data : Table := []
  raw : Keyed String := []
  failure : Option Error := none
  /-- The calls that fail, counted from one; without a list every call does. -/
  failingCalls : Option (List Nat) := none
  notices : List Diagnostic := []
  ignoresKey : Bool := false
  calls : Nat := 0

namespace FixedSource

/-- Whether a call fails. -/
def failsOn (s : FixedSource) (call : Nat) : Bool :=
  match s.failingCalls with
  | none => true
  | some calls => calls.contains call

/-- Answer one more call. -/
def discover (s : FixedSource) (key : Option String) : Except Error Table × FixedSource :=
  let call := s.calls + 1
  let answer : Except Error Table :=
    match s.failure with
    | some e => if s.failsOn call then .error e else found
    | none => found
  (answer, { s with calls := call })
where
  found : Except Error Table := .ok (Table.select s.data (if s.ignoresKey then none else key))

/-- Hand out the diagnostics. -/
def drain (s : FixedSource) : List Diagnostic × FixedSource := (s.notices, { s with notices := [] })

end FixedSource

end LayeredConfig
