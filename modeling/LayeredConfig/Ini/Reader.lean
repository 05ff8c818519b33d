import LayeredConfig.Keyed
import LayeredConfig.Syntax
import LayeredConfig.Text.Blank
import LayeredConfig.Text.Hex

/-!
# Reading INI

A text is a sequence of section names in brackets, assignments and comments, with white space between
them. A comment begins in the first column only. A backslash escapes in names, keys and values. A
section that occurs again begins anew; of several values under one key the last counts.
-/

namespace LayeredConfig.Ini

/-- The entries in front of the first section, and the sections, as they are spelt. -/
structure Document where
  general : Keyed String := []
  sections : Keyed (Keyed String) := []

/-- Put a value under a key of a section, or in front of the first one. -/
def Document.assign (d : Document) (current : Option String) (key value : String) : Document :=
  match current with
  | none => { d with general := Keyed.insert key value d.general }
  | some name =>
    let entries := (Keyed.get? name d.sections).getD []
    { d with sections := Keyed.insert name (Keyed.insert key value entries) d.sections }

/-- Begin a section. -/
def Document.begin (d : Document) (name : String) : Document :=
  { d with sections := Keyed.insert name [] d.sections }

/-- The number that four characters spell; a plus may stand in front. -/
def code? : List Char → Option Nat
  | '+' :: digits => Text.hex? digits
  | digits => Text.hex? digits

/-- The characters that a backslash and what follows it stand for, and the rest. -/
def escaped? : List Char → Option (List Char × List Char)
  | '0' :: rest => some (['\x00'], rest)
  | 'a' :: rest => some (['\x07'], rest)
  | 'b' :: rest => some (['\x08'], rest)
  | 't' :: rest => some (['\t'], rest)
  | 'r' :: rest => some (['\r'], rest)
  | 'n' :: rest => some (['\n'], rest)
  | '\n' :: rest => some ([], rest)
  | 'x' :: a :: b :: c :: d :: rest => do
    let c ← Text.scalar? (← code? [a, b, c, d])
    return ([c], rest)
  | 'x' :: _ => none
  | c :: rest => some ([c], rest)
  | [] => none

private theorem length_escaped {s cs rest : List Char} (h : escaped? s = some (cs, rest)) :
    rest.length < s.length := by
  unfold escaped? at h
  split at h
  case h_8 =>
    simp only [Option.bind_eq_bind, Option.bind_eq_some_iff] at h
    obtain ⟨_, _, _, _, h⟩ := h
    cases h
    simp only [List.length_cons]
    omega
  all_goals cases h <;> simp

/-- Read up to an end character or the end of the text, resolving escapes. -/
def readUntil (isEnd : Char → Bool) (s : List Char) : Except Failure (List Char × List Char) :=
  match s with
  | [] => .ok ([], [])
  | c :: rest =>
    if c = '\\' then
      match _h : escaped? rest with
      | none => .error ⟨rest, .badEscape⟩
      | some (cs, rest) =>
        match readUntil isEnd rest with
        | .error f => .error f
        | .ok (more, rest) => .ok (cs ++ more, rest)
    else if isEnd c then .ok ([], c :: rest)
    else
      match readUntil isEnd rest with
      | .error f => .error f
      | .ok (more, rest) => .ok (c :: more, rest)
termination_by s.length
decreasing_by
  · have := length_escaped ‹_›
    simp only [List.length_cons]
    omega
  · simp

/-- Read up to an end character, which has to come, and pass over it. -/
def readThrough (what : String) (isEnd : Char → Bool) : Scan (List Char) := fun s ↦
  match readUntil isEnd s with
  | .error f => .error f
  | .ok (_, []) => .error ⟨[], .unclosed what⟩
  | .ok (cs, _ :: rest) => .ok (cs, rest)

/-- Read up to the end of the line. -/
def restOfLine : Scan (List Char) := readUntil fun c ↦ c == '\n' || c == '\r'

/-- White space within a line. -/
def isSpace (c : Char) : Bool := Text.isBlank c && c != '\n' && c != '\r'

/-- A value after its separator: a quoted part, if it begins with a quote, and the rest of the
line. -/
def value : Scan (List Char) := do
  Scan.skipWhile isSpace
  match ← Scan.peek with
  | some c =>
    if c = '"' ∨ c = '\'' then
      let _ ← Scan.accept [c]
      let quoted ← readThrough "quoted value" (· == c)
      return quoted ++ (← restOfLine)
    else restOfLine
  | none => return []

/-- Pass over white space. Whether the rest begins in the first column comes with it. -/
def skipBlanks (first : Bool) : List Char → Bool × List Char
  | [] => (first, [])
  | c :: rest => if Text.isBlank c then skipBlanks (c == '\n') rest else (first, c :: rest)

/-- A text without the white space around it. -/
def trimmed (cs : List Char) : String := String.ofList (Text.trim cs)

/-- Read an assignment. -/
def assignment : Scan (String × String) := do
  let key := trimmed (← readThrough "key" fun c ↦ c == '=' || c == ':')
  if key.isEmpty then Scan.fail .emptyKey
  return (key, trimmed (← value))

/-- Read the name of a section after its bracket. -/
def sectionName : Scan String := return trimmed (← readThrough "section name" (· == ']'))

/-- Pass over a comment. The line break stays. -/
def comment : Scan Unit := Scan.skipWhile (· != '\n')

/-- Read items into a document, at most `fuel` of them. -/
def items (d : Document) (current : Option String) (first : Bool) : Nat → Scan Document
  | 0 => return d
  | fuel + 1 => do
    let (first, rest) := skipBlanks first (← get)
    set rest
    match rest with
    | [] => return d
    | c :: _ =>
      if c = ';' ∨ c = '#' then
        if first then
          comment
          items d current false fuel
        else Scan.fail (.expected "comment at the start of a line")
      else if c = '[' then
        Scan.expect "["
        let name ← sectionName
        items (d.begin name) (some name) false fuel
      else
        let (key, value) ← assignment
        items (d.assign current key value) current false fuel

/-- Read a text. -/
def read (text : String) : Except SyntaxError Document :=
  Scan.readAll (items {} none true text.length) text.toList

end LayeredConfig.Ini
