import LayeredConfig.Syntax
import LayeredConfig.Text.Hex

/-!
# Strings in TOML

Basic strings resolve escapes, literal ones do not; both exist on one line and over several lines. A
string over several lines drops a line break right at its start, counts every line break as one
character, and may have up to two quotes in front of the closing three.
-/

namespace LayeredConfig.Toml

/-- Spaces within a line. -/
def isSpace (c : Char) : Bool := c == ' ' || c == '\t'

/-- Characters that may stand for themselves in strings and comments. -/
def isPlain (c : Char) : Bool := c == '\t' || (32 ≤ c.toNat && c.toNat ≠ 127)

/-- What follows a line break, if one comes next. -/
def newline? : List Char → Option (List Char)
  | '\n' :: rest => some rest
  | '\r' :: '\n' :: rest => some rest
  | _ => none

/-- Pass over spaces and line breaks. -/
def skipLines : List Char → List Char
  | '\r' :: '\n' :: rest => skipLines rest
  | c :: rest => if isSpace c || c == '\n' then skipLines rest else c :: rest
  | [] => []

/-- A character given by exactly `count` hexadecimal digits. -/
def numbered? (count : Nat) (s : List Char) : Option (Char × List Char) := do
  let digits := s.take count
  if digits.length = count then
    let c ← Text.scalar? (← Text.hex? digits)
    return (c, s.drop count)
  else none

/-- The character that is escaped by what follows a backslash. -/
def escaped? : List Char → Option (Char × List Char)
  | 'b' :: rest => some ('\x08', rest)
  | 't' :: rest => some ('\t', rest)
  | 'n' :: rest => some ('\n', rest)
  | 'f' :: rest => some ('\x0c', rest)
  | 'r' :: rest => some ('\r', rest)
  | '"' :: rest => some ('"', rest)
  | '\\' :: rest => some ('\\', rest)
  | 'u' :: rest => numbered? 4 rest
  | 'U' :: rest => numbered? 8 rest
  | _ => none

/-- The four ways to write a string. -/
structure Quoting where
  quote : Char
  escapes : Bool
  lines : Bool

/-- The next part of a string: some of its characters, or its end. -/
inductive Piece where
  | characters (cs rest : List Char)
  | finish (cs rest : List Char)

/-- Read one part of a string. -/
def Quoting.piece (q : Quoting) : List Char → Except SyntaxRule Piece
  | [] => .error (.unclosed "string")
  | c :: rest =>
    if c = q.quote then
      if q.lines then
        let further := (rest.takeWhile (· == q.quote)).length
        if further < 2 then .ok (.characters [c] rest)
        else
          let extra := min (further - 2) 2
          .ok (.finish (List.replicate extra c) (rest.drop (extra + 2)))
      else .ok (.finish [] rest)
    else if c = '\\' ∧ q.escapes then
      match if q.lines then newline? (rest.dropWhile isSpace) else none with
      | some rest => .ok (.characters [] (skipLines rest))
      | none =>
        match escaped? rest with
        | some (c, rest) => .ok (.characters [c] rest)
        | none => .error .badEscape
    else
      match if q.lines then newline? (c :: rest) else none with
      | some rest => .ok (.characters ['\n'] rest)
      | none => if isPlain c then .ok (.characters [c] rest) else .error (.expected "character")

/-- Read parts up to the end of a string; there are at most `fuel` of them. -/
def Quoting.body (q : Quoting) : Nat → Scan (List Char)
  | 0, s => .error ⟨s, .unclosed "string"⟩
  | fuel + 1, s =>
    match q.piece s with
    | .error rule => .error ⟨s, rule⟩
    | .ok (.finish cs rest) => .ok (cs, rest)
    | .ok (.characters cs rest) =>
      match q.body fuel rest with
      | .error f => .error f
      | .ok (more, rest) => .ok (cs ++ more, rest)

/-- Read a string after its opening quotes. -/
def Quoting.read (q : Quoting) : Scan String := fun s ↦
  match q.body s.length s with
  | .error f => .error f
  | .ok (cs, rest) => .ok (String.ofList cs, rest)

/-- A string on one line, as keys may be; none if no quote comes next. -/
def lineString? : Scan (Option String) := do
  if ← Scan.accept ['"'] then some <$> Quoting.read ⟨'"', true, false⟩
  else if ← Scan.accept ['\''] then some <$> Quoting.read ⟨'\'', false, false⟩
  else return none

/-- Drop a line break at the start of a string over several lines. -/
def dropNewline : Scan Unit := fun s ↦ .ok ((), (newline? s).getD s)

/-- A string of any kind; none if no quote comes next. -/
def string? : Scan (Option String) := do
  if ← Scan.accept ['"', '"', '"'] then
    dropNewline
    some <$> Quoting.read ⟨'"', true, true⟩
  else if ← Scan.accept ['\'', '\'', '\''] then
    dropNewline
    some <$> Quoting.read ⟨'\'', false, true⟩
  else lineString?

end LayeredConfig.Toml
