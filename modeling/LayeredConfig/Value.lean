import LayeredConfig.Keyed
import LayeredConfig.Decimal.Binary64

/-!
# Values

The values a source may supply: scalars, lists and tables. Integers and doubles are different kinds
of number, so `1` and `1.0` differ. `Value.same` is the equality by which a result is matched with
the candidate that supplied it: it tells all values apart but the two zeros.
-/

namespace LayeredConfig

/-- A configuration value. -/
inductive Value where
  | null
  | bool (b : Bool)
  | int (n : Int)
  | float (bits : Decimal.Bits)
  | string (s : String)
  | array (items : List Value)
  | table (entries : List (String × Value))

/-- A nested map of values. -/
abbrev Table := Keyed Value

/-- What sort of value stands somewhere, as error texts name it. -/
inductive Kind where
  | null | boolean | number | string | array | table
  deriving DecidableEq, Repr

/-- The word for a kind. -/
def Kind.name : Kind → String
  | .null => "null"
  | .boolean => "boolean"
  | .number => "number"
  | .string => "string"
  | .array => "array"
  | .table => "table"

namespace Value

instance : Inhabited Value := ⟨.null⟩

/-- The kind of a value. -/
def kind : Value → Kind
  | .null => .null
  | .bool _ => .boolean
  | .int _ => .number
  | .float _ => .number
  | .string _ => .string
  | .array _ => .array
  | .table _ => .table

/-- Whether a value is a table. -/
def isTable : Value → Bool
  | .table _ => true
  | _ => false

/-- The entries of a table. -/
def table? : Value → Option Table
  | .table t => some t
  | _ => none

mutual

/-- Equality of values; the two zeros are one number. -/
def same : Value → Value → Bool
  | .null, .null => true
  | .bool a, .bool b => a == b
  | .int a, .int b => a == b
  | .float a, .float b => a.same b
  | .string a, .string b => a == b
  | .array a, .array b => sameItems a b
  | .table a, .table b => sameEntries a b
  | _, _ => false

/-- Lists are equal item by item. -/
def sameItems : List Value → List Value → Bool
  | [], [] => true
  | a :: as, b :: bs => a.same b && sameItems as bs
  | _, _ => false

/-- Tables are equal entry by entry, in key order. -/
def sameEntries : List (String × Value) → List (String × Value) → Bool
  | [], [] => true
  | (k, a) :: as, (l, b) :: bs => k == l && a.same b && sameEntries as bs
  | _, _ => false

end

mutual

/-- Every table inside has ascending keys. -/
def Ordered : Value → Prop
  | .array items => OrderedItems items
  | .table entries => Keyed.Sorted entries ∧ OrderedEntries entries
  | _ => True

/-- Every item is ordered. -/
def OrderedItems : List Value → Prop
  | [] => True
  | v :: rest => v.Ordered ∧ OrderedItems rest

/-- Every value under a key is ordered. -/
def OrderedEntries : List (String × Value) → Prop
  | [] => True
  | (_, v) :: rest => v.Ordered ∧ OrderedEntries rest

end

theorem isTable_iff {v : Value} : v.isTable = true ↔ ∃ t, v = .table t := by
  cases v <;> simp [isTable]

end Value

end LayeredConfig
