import LayeredConfig.Json
import LayeredConfig.Text.Unprintable

/-!
# Debugging text

A form of strings and values that shows their structure and every invisible character. Records are
written as a name and their fields.
-/

namespace LayeredConfig.DebugText

/-- The hexadecimal digits of a number. -/
def hex (n : Nat) : List Char := Nat.toDigits 16 n

/-- The written form of one character: short escapes, then the number of anything unprintable. -/
def escape (c : Char) : List Char :=
  if c.toNat = 0 then ['\\', '0']
  else if c = '\t' then ['\\', 't']
  else if c = '\r' then ['\\', 'r']
  else if c = '\n' then ['\\', 'n']
  else if c = '"' then ['\\', '"']
  else if c = '\\' then ['\\', '\\']
  else if Text.isUnprintable c then ['\\', 'u', '\x7b'] ++ hex c.toNat ++ ['\x7d']
  else [c]

/-- A string in quotes. -/
def quote (s : String) : String := String.ofList ('"' :: s.toList.flatMap escape ++ ['"'])

/-- A flag as a word. -/
def flag (b : Bool) : String := if b then "true" else "false"

/-- Something that may be absent. -/
def optional (text : α → String) : Option α → String
  | none => "None"
  | some a => "Some(" ++ text a ++ ")"

/-- A record: its name, then fields with their texts. -/
def record (name : String) (fields : List (String × String)) : String :=
  name ++ " \x7b " ++ go fields ++ " \x7d"
where
  go : List (String × String) → String
    | [] => ""
    | [(field, text)] => field ++ ": " ++ text
    | (field, text) :: next :: rest => field ++ ": " ++ text ++ ", " ++ go (next :: rest)

end LayeredConfig.DebugText

namespace LayeredConfig.Value

open DebugText (quote flag)

mutual

/-- Debugging text of a value. -/
def debug : Value → String
  | .null => "Null"
  | .bool b => "Bool(" ++ flag b ++ ")"
  | .string s => "String(" ++ quote s ++ ")"
  | .array [] => "Array []"
  | .array (v :: rest) => "Array [" ++ v.debug ++ debugItems rest ++ "]"
  | .table [] => "Object \x7b\x7d"
  | .table ((k, v) :: rest) =>
    "Object \x7b" ++ quote k ++ ": " ++ v.debug ++ debugEntries rest ++ "\x7d"
  | .int n => "Number(" ++ toString n ++ ")"
  | .float bits => "Number(" ++ Json.double.write bits ++ ")"

/-- Further items, each after a comma. -/
def debugItems : List Value → String
  | [] => ""
  | v :: rest => ", " ++ v.debug ++ debugItems rest

/-- Further entries, each after a comma. -/
def debugEntries : List (String × Value) → String
  | [] => ""
  | (k, v) :: rest => ", " ++ quote k ++ ": " ++ v.debug ++ debugEntries rest

end

end LayeredConfig.Value
