import LayeredConfig.Toml.Moment
import LayeredConfig.Toml.Tree

/-!
# Moments as tables

A date or time is a value in the form of a table: its text stands under a key of its own. A text may
spell such a table out. Where that key comes first in a table, the table is a moment: the text under
the key has to be one, it is written anew, and the other entries count for nothing.
-/

namespace LayeredConfig.Toml

/-- The key under which the text of a date or time stands. -/
def momentKey : String := "$__toml_private_datetime"

/-- A date or time as a value. -/
def momentValue (text : String) : Value := .table [(momentKey, .string text)]

/-- The moment that the whole of a text spells. -/
def momentOf? (text : String) : Option String :=
  match moment? text.toList with
  | .ok (some text, []) => some text
  | _ => none

/-- The moment that stands under the key of moments. -/
def spelled : Node → Except SyntaxRule Value
  | .leaf (.string text) =>
    match momentOf? text with
    | some text => .ok (momentValue text)
    | none => .error (.wrongType momentKey "a date or time")
  | _ => .error (.wrongType momentKey "a string")

mutual

/-- The finished value, in which tables that spell moments are moments. -/
def Node.read : Node → Except SyntaxRule Value
  | .leaf v => .ok v
  | .array items => do return .array (← readItems items)
  | .table _ entries => readTable entries
  | .elements latestFirst => do return .array (← readElements latestFirst).reverse

/-- The value of a table: a moment, if the key of moments comes first. -/
def readTable : List (String × Node) → Except SyntaxRule Value
  | [] => .ok (.table [])
  | (k, n) :: rest =>
    if k = momentKey then spelled n
    else do return .table (Keyed.ofList ((k, ← n.read) :: (← readEntries rest)))

/-- The values of entries, in the order in which they came. -/
def readEntries : List (String × Node) → Except SyntaxRule (List (String × Value))
  | [] => .ok []
  | (k, n) :: rest => do return (k, ← n.read) :: (← readEntries rest)

/-- The values of items. -/
def readItems : List Node → Except SyntaxRule (List Value)
  | [] => .ok []
  | n :: rest => do return (← n.read) :: (← readItems rest)

/-- The values of elements. -/
def readElements : List (List (String × Node)) → Except SyntaxRule (List Value)
  | [] => .ok []
  | entries :: rest => do return (← readTable entries) :: (← readElements rest)

end

end LayeredConfig.Toml
