import LayeredConfig.Syntax
import LayeredConfig.Text.Hex
import LayeredConfig.Value

/-!
# Numbers in TOML

Integers of 64 bits in four bases, and doubles. Underscores may stand between digits. A double that
is not finite reads as null; of doubles beyond the range only negative ones are read.
-/

namespace LayeredConfig.Toml

/-- Read digits of a base; an underscore has to stand between two of them. -/
def digits (isDigit : Char → Bool) : List Char → Except Failure (List Char × List Char)
  | [] => .ok ([], [])
  | '_' :: d :: rest =>
    if isDigit d then
      match digits isDigit rest with
      | .ok (ds, rest) => .ok (d :: ds, rest)
      | .error f => .error f
    else .error ⟨d :: rest, .expected "digit"⟩
  | ['_'] => .error ⟨[], .expected "digit"⟩
  | c :: rest =>
    if isDigit c then
      match digits isDigit rest with
      | .ok (ds, rest) => .ok (c :: ds, rest)
      | .error f => .error f
    else .ok ([], c :: rest)

/-- Read at least one digit. -/
def someDigits (isDigit : Char → Bool) : Scan (List Char) := fun s ↦
  match s with
  | c :: _ => if isDigit c then digits isDigit s else .error ⟨s, .expected "digit"⟩
  | [] => .error ⟨s, .expected "digit"⟩

/-- Read the digits of a whole number: a zero stands alone. -/
def wholeDigits : Scan (List Char) := fun s ↦
  match s with
  | '0' :: rest => .ok (['0'], rest)
  | s => someDigits Char.isDigit s

/-- The number that digits of a base spell. -/
def ofDigits (base : Nat) (ds : List Char) : Nat :=
  ds.foldl (fun n c ↦ base * n + (Text.hexDigit? c).getD 0) 0

/-- An integer, if it has 64 bits. -/
def integer (n : Int) : Scan Value :=
  if -0x8000000000000000 ≤ n ∧ n < 0x8000000000000000 then return .int n else Scan.fail .outOfRange

/-- A double as a value. -/
def ofBits (bits : Decimal.Bits) : Value := if bits.finite then .float bits else .null

/-- Read a number without a sign in a base given by its letter. -/
def basedNumber? : Scan (Option Value) := do
  let based (base : Nat) (isDigit : Char → Bool) : Scan (Option Value) := do
    let ds ← someDigits isDigit
    some <$> integer (ofDigits base ds)
  if ← Scan.accept ['0', 'x'] then based 16 Text.isHexDigit
  else if ← Scan.accept ['0', 'o'] then based 8 fun c ↦ '0' ≤ c && c ≤ '7'
  else if ← Scan.accept ['0', 'b'] then based 2 fun c ↦ c == '0' || c == '1'
  else return none

/-- Read the sign, true for a minus. -/
def sign : Scan Bool := do
  if ← Scan.accept ['-'] then return true
  else
    let _ ← Scan.accept ['+']
    return false

/-- Read the decimals after a point, if there is one. -/
def fraction? : Scan (Option (List Char)) := do
  if ← Scan.accept ['.'] then some <$> someDigits Char.isDigit else return none

/-- Pass over the letter of an exponent, if it comes next. -/
def exponentMark : Scan Bool := do
  if ← Scan.accept ['e'] then return true else Scan.accept ['E']

/-- Read an exponent, if there is one. -/
def exponent? : Scan (Option Int) := do
  if ← exponentMark then
    let negative ← sign
    let n := ofDigits 10 (← someDigits Char.isDigit)
    return some (if negative then -n else n)
  else return none

/-- Read a number in base ten. -/
def decimalNumber : Scan Value := do
  let negative ← sign
  if ← Scan.accept ['i', 'n', 'f'] then return .null
  if ← Scan.accept ['n', 'a', 'n'] then return .null
  let whole ← wholeDigits
  let fraction ← fraction?
  let exponent ← exponent?
  match fraction, exponent with
  | none, none =>
    let n : Int := ofDigits 10 whole
    integer (if negative then -n else n)
  | _, _ =>
    let ds := whole ++ fraction.getD []
    let bits := Decimal.ofDecimal negative (ofDigits 10 ds)
      (exponent.getD 0 - (fraction.getD []).length)
    if bits = Decimal.Bits.infinity then Scan.fail .outOfRange else return ofBits bits

/-- Read a number. -/
def number : Scan Value := do
  match ← basedNumber? with
  | some v => return v
  | none => decimalNumber

end LayeredConfig.Toml
