import LayeredConfig.Value
import LayeredConfig.Decimal.Layout

/-!
# JSON text of values

One line (`Value.compact`) or two spaces per level (`Value.pretty`). Entries are written in the order
in which the table lists them, so a document with fields in an order of its own is a table too.
-/

namespace LayeredConfig.Json

/-- A hexadecimal digit in lower case. -/
def hexDigit (n : Nat) : Char := if n < 10 then Char.ofNat (48 + n) else Char.ofNat (87 + n)

/-- The written form of one character. Only the quote, the backslash and control characters below
U+0020 are escaped. -/
def escape (c : Char) : List Char :=
  if c = '"' then ['\\', '"']
  else if c = '\\' then ['\\', '\\']
  else if c = '\n' then ['\\', 'n']
  else if c = '\r' then ['\\', 'r']
  else if c = '\t' then ['\\', 't']
  else if c.toNat = 8 then ['\\', 'b']
  else if c.toNat = 12 then ['\\', 'f']
  else if c.toNat < 32 then ['\\', 'u', '0', '0', hexDigit (c.toNat / 16), hexDigit (c.toNat % 16)]
  else [c]

/-- A string in quotes. -/
def quote (s : String) : String := String.ofList ('"' :: s.toList.flatMap escape ++ ['"'])

/-- Doubles: the fewest digits, a point always, an exponent from `10 ^ 16` on and below `10 ^ -5`. -/
def double : Decimal.Layout := ⟨-5, 15, ".0", "e+", "e-"⟩

/-- Start of a line at a level. -/
def newline (level : Nat) : String := "\n" ++ String.ofList (List.replicate (2 * level) ' ')

end LayeredConfig.Json

namespace LayeredConfig.Value

open Json (quote double newline)

mutual

/-- JSON text on one line. -/
def compact : Value → String
  | .null => "null"
  | .bool b => if b then "true" else "false"
  | .int n => toString n
  | .float bits => double.write bits
  | .string s => quote s
  | .array [] => "[]"
  | .array (v :: rest) => "[" ++ v.compact ++ compactItems rest ++ "]"
  | .table [] => "\x7b\x7d"
  | .table ((k, v) :: rest) =>
    "\x7b" ++ quote k ++ ":" ++ v.compact ++ compactEntries rest ++ "\x7d"

/-- Further items, each after a comma. -/
def compactItems : List Value → String
  | [] => ""
  | v :: rest => "," ++ v.compact ++ compactItems rest

/-- Further entries, each after a comma. -/
def compactEntries : List (String × Value) → String
  | [] => ""
  | (k, v) :: rest => "," ++ quote k ++ ":" ++ v.compact ++ compactEntries rest

end

mutual

/-- JSON text with every item and entry on a line of its own. -/
def prettyAt (level : Nat) : Value → String
  | .array (v :: rest) =>
    "[" ++ newline (level + 1) ++ v.prettyAt (level + 1) ++ prettyItems level rest ++
      newline level ++ "]"
  | .table ((k, v) :: rest) =>
    "\x7b" ++ newline (level + 1) ++ quote k ++ ": " ++ v.prettyAt (level + 1) ++
      prettyEntries level rest ++ newline level ++ "\x7d"
  | v => v.compact

/-- Further items, each after a comma and a line break. -/
def prettyItems (level : Nat) : List Value → String
  | [] => ""
  | v :: rest => "," ++ newline (level + 1) ++ v.prettyAt (level + 1) ++ prettyItems level rest

/-- Further entries, each after a comma and a line break. -/
def prettyEntries (level : Nat) : List (String × Value) → String
  | [] => ""
  | (k, v) :: rest =>
    "," ++ newline (level + 1) ++ quote k ++ ": " ++ v.prettyAt (level + 1) ++
      prettyEntries level rest

end

/-- JSON text over several lines. -/
def pretty (v : Value) : String := v.prettyAt 0

end LayeredConfig.Value
