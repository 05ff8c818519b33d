/-!
# Reading failures

A text that breaks the grammar of its format is refused with the line and the rule that was broken.
-/

namespace LayeredConfig

/-- Which rule of a format a text breaks. -/
inductive SyntaxRule where
  | expected (what : String)
  | unclosed (what : String)
  | emptyKey
  | duplicateKey (key : String)
  | badEscape
  | outOfRange
  | tooDeep
  | wrongType (field wanted : String)
  deriving DecidableEq, Repr

/-- The rule in words. -/
def SyntaxRule.message : SyntaxRule → String
  | .expected what => "expected " ++ what
  | .unclosed what => what ++ " is not closed"
  | .emptyKey => "missing key"
  | .duplicateKey key => "duplicate key: " ++ key
  | .badEscape => "invalid escape sequence"
  | .outOfRange => "value out of range"
  | .tooDeep => "nested too deeply"
  | .wrongType field wanted => field ++ " must be " ++ wanted

/-- A broken rule and the line that breaks it, counted from one. -/
structure SyntaxError where
  line : Nat
  rule : SyntaxRule
  deriving DecidableEq, Repr

/-- The failure in words. -/
def SyntaxError.message (e : SyntaxError) : String :=
  "line " ++ toString e.line ++ ": " ++ e.rule.message

/-- A broken rule and what was left to read when it broke. -/
structure Failure where
  rest : List Char
  rule : SyntaxRule

/-- The line on which a failure in a text happened. -/
def Failure.locate (text : List Char) (f : Failure) : SyntaxError :=
  { line := (text.take (text.length - f.rest.length)).count '\n' + 1
    rule := f.rule }

/-- Reading from the front of a text. -/
abbrev Scan := StateT (List Char) (Except Failure)

namespace Scan

variable {α : Type}

/-- Stop at a broken rule. -/
def fail (rule : SyntaxRule) : Scan α := fun s ↦ .error ⟨s, rule⟩

/-- The next character, if there is one. -/
def peek : Scan (Option Char) := fun s ↦ .ok (s.head?, s)

/-- Pass over characters. -/
def skipWhile (p : Char → Bool) : Scan Unit := fun s ↦ .ok ((), s.dropWhile p)

/-- Read characters while they satisfy a condition. -/
def takeWhile (p : Char → Bool) : Scan (List Char) := fun s ↦ .ok (s.takeWhile p, s.dropWhile p)

/-- Pass over a given text, if it comes next. -/
def accept (text : List Char) : Scan Bool := fun s ↦
  match text.isPrefixOf? s with
  | some rest => .ok (true, rest)
  | none => .ok (false, s)

/-- Pass over a given text, which has to come next. -/
def expect (text : String) : Scan Unit := fun s ↦
  match text.toList.isPrefixOf? s with
  | some rest => .ok ((), rest)
  | none => .error ⟨s, .expected text⟩

/-- Read a whole text. -/
def readAll (scan : Scan α) (text : List Char) : Except SyntaxError α :=
  match scan text with
  | .error f => .error (f.locate text)
  | .ok (a, []) => .ok a
  | .ok (_, rest) => .error (Failure.locate text ⟨rest, .expected "end of text"⟩)

end Scan

end LayeredConfig
