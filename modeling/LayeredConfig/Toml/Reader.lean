import LayeredConfig.Toml.Number
import LayeredConfig.Toml.Quoted
import LayeredConfig.Toml.Spelled

/-!
# Reading TOML

A document is a sequence of lines: headings, entries and comments. Arrays may span lines, tables in
braces may not. Nesting and the length of dotted keys are limited.
-/

namespace LayeredConfig.Toml

/-- The number of segments that a dotted key may have. Arrays and tables in braces may be nested as
deeply. -/
def depthLimit : Nat := 79

/-- Characters of a key without quotes. -/
def isBareKey (c : Char) : Bool := c.isAlphanum || c == '_' || c == '-'

/-- Pass over spaces. -/
def spaces : Scan Unit := Scan.skipWhile isSpace

/-- Pass over a comment and the end of the line. -/
def endLine : Scan Unit := do
  spaces
  if ← Scan.accept ['#'] then Scan.skipWhile isPlain
  let rest ← get
  match newline? rest with
  | some rest => set rest
  | none => if rest.isEmpty then return () else Scan.fail (.expected "end of line")

/-- Pass over spaces, comments and line breaks. -/
def skipBlankLines (inComment : Bool) : List Char → Except Failure (List Char)
  | '\r' :: '\n' :: rest => skipBlankLines false rest
  | c :: rest =>
    if c = '\n' then skipBlankLines false rest
    else if inComment then
      if isPlain c then skipBlankLines true rest else .error ⟨c :: rest, .expected "end of line"⟩
    else if isSpace c then skipBlankLines false rest
    else if c = '#' then skipBlankLines true rest
    else .ok (c :: rest)
  | [] => .ok []

/-- Pass over spaces, comments and line breaks. -/
def blankLines : Scan Unit := fun s ↦ do return ((), ← skipBlankLines false s)

/-- One segment of a key. -/
def segment : Scan String := do
  match ← lineString? with
  | some s => return s
  | none =>
    match ← Scan.takeWhile isBareKey with
    | [] => Scan.fail (.expected "key")
    | cs => return String.ofList cs

/-- The segments of a dotted key, at most `fuel` of them. -/
def keySegments : Nat → Scan Key
  | 0 => Scan.fail .tooDeep
  | fuel + 1 => do
    spaces
    let first ← segment
    spaces
    if ← Scan.accept ['.'] then
      let key ← keySegments fuel
      return { key with path := first :: key.path }
    else return ⟨[], first⟩

/-- A dotted key. -/
def key : Scan Key := keySegments depthLimit

/-- Carry out a change that may break a rule. -/
def change {α : Type} : Except SyntaxRule α → Scan α
  | .ok a => return a
  | .error rule => Scan.fail rule

/-- The items of an array after its bracket, at most `fuel` of them. -/
def arrayItems (item : Scan Node) : Nat → Scan (List Node)
  | 0 => Scan.fail (.unclosed "array")
  | fuel + 1 => do
    blankLines
    if ← Scan.accept [']'] then return []
    let n ← item
    blankLines
    if ← Scan.accept [','] then return n :: (← arrayItems item fuel)
    Scan.expect "]"
    return [n]

/-- The entries of a table in braces, put into a branch, at most `fuel` of them. -/
def inlineEntries (item : Scan Node) (b : Branch) : Nat → Scan Branch
  | 0 => Scan.fail (.unclosed "table")
  | fuel + 1 => do
    let key ← key
    Scan.expect "="
    spaces
    let n ← item
    let b ← change (Branch.assign key n .inline b)
    spaces
    if ← Scan.accept [','] then inlineEntries item b fuel
    else
      Scan.expect "\x7d"
      return b

/-- A table in braces after the first of them. -/
def inlineTable (item : Scan Node) : Scan Node := do
  spaces
  if ← Scan.accept ['\x7d'] then return .table .inline []
  else return .table .inline (← inlineEntries item [] (← get).length)

/-- A date, a time or a number. -/
def momentOrNumber : Scan Node := do
  match ← moment? with
  | some text => return .leaf (momentValue text)
  | none => return .leaf (← number)

/-- A word that stands for a value. -/
def word (text : String) (v : Value) : Scan Node := do
  Scan.expect text
  return .leaf v

/-- A value with at most `depth` levels of arrays and tables in it. -/
def value : Nat → Scan Node
  | depth => do
    match ← string? with
    | some s => return .leaf (.string s)
    | none =>
      match ← Scan.peek with
      | some '[' => array depth
      | some '\x7b' => braces depth
      | some 't' => word "true" (.bool true)
      | some 'f' => word "false" (.bool false)
      | some 'i' => word "inf" .null
      | some 'n' => word "nan" .null
      | _ => momentOrNumber
where
  array : Nat → Scan Node
    | 0 => Scan.fail .tooDeep
    | depth + 1 => do
      Scan.expect "["
      let items ← arrayItems (value depth) (← get).length
      return .array items
  braces : Nat → Scan Node
    | 0 => Scan.fail .tooDeep
    | depth + 1 => do
      Scan.expect "\x7b"
      inlineTable (value depth)

/-- The document so far, and the heading under which entries are put. -/
structure Document where
  root : Branch := []
  heading : List String := []

/-- Put an entry under the heading. -/
def Document.assign (d : Document) (key : Key) (n : Node) : Except SyntaxRule Document := do
  let root ← Walk.heading.change (Branch.assign key n) d.heading .header d.root
  return { d with root }

/-- Begin the part under another heading. -/
def Document.under (key : Key) (root : Branch) : Document := ⟨root, key.path ++ [key.last]⟩

/-- One line of a document that is neither empty nor a comment. -/
def line (d : Document) : Scan Document := do
  if ← Scan.accept ['[', '['] then
    let key ← key
    Scan.expect "]]"
    endLine
    return .under key (← change (Branch.openElement key d.root))
  else if ← Scan.accept ['['] then
    let key ← key
    Scan.expect "]"
    endLine
    return .under key (← change (Branch.openTable key d.root))
  else
    let key ← key
    Scan.expect "="
    spaces
    let n ← value depthLimit
    endLine
    change (d.assign key n)

/-- The lines of a document, at most `fuel` of them. -/
def document (d : Document) : Nat → Scan Document
  | 0 => return d
  | fuel + 1 => do
    spaces
    match ← Scan.peek with
    | none => return d
    | some c =>
      if c = '#' ∨ c = '\n' ∨ c = '\r' then
        endLine
        document d fuel
      else document (← line d) fuel

/-- Read a text; a byte order mark in front is no part of it. -/
def readTree (text : String) : Except SyntaxError Branch := do
  let cs := match text.toList with
    | '\ufeff' :: cs => cs
    | cs => cs
  let d ← Scan.readAll (document {} cs.length) cs
  return d.root

/-- Read a text whose tables are all tables. -/
def readPlain (text : String) : Except SyntaxError Table := (readTree text).map Branch.table

/-- Read a text. Below its top level, tables that spell moments are moments. -/
def read (text : String) : Except SyntaxError Table := do
  let b ← readTree text
  match readEntries b with
  | .ok entries => return Keyed.ofList entries
  | .error rule => throw ⟨1, rule⟩

end LayeredConfig.Toml
