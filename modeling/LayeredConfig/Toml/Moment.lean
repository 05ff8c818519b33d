import LayeredConfig.Syntax

/-!
# Dates and times in TOML

A date, a time, or both, and then perhaps a distance to universal time. The text of a moment is the
same however it was written: `T` between date and time, up to nine decimals of a second without
zeros at the end, `Z` or a signed distance.
-/

namespace LayeredConfig.Toml

/-- Two digits in a range. -/
def twoDigits? (low high : Nat) : List Char → Option (Nat × List Char)
  | a :: b :: rest =>
    let n := 10 * (a.toNat - 48) + (b.toNat - 48)
    if a.isDigit ∧ b.isDigit ∧ low ≤ n ∧ n ≤ high then some (n, rest) else none
  | _ => none

/-- Read two digits in a range. -/
def twoDigits (low high : Nat) : Scan Nat := fun s ↦
  match twoDigits? low high s with
  | some (n, rest) => .ok (n, rest)
  | none => .error ⟨s, .expected "two digits in range"⟩

/-- The digits of a number, filled up with zeros to a width. -/
def padZeros (width n : Nat) : String :=
  let ds := Nat.toDigits 10 n
  String.ofList (List.replicate (width - ds.length) '0' ++ ds)

/-- Days of a month. -/
def daysIn (year month : Nat) : Nat :=
  if month = 2 then
    if year % 4 = 0 ∧ (year % 100 ≠ 0 ∨ year % 400 = 0) then 29 else 28
  else if month = 4 ∨ month = 6 ∨ month = 9 ∨ month = 11 then 30
  else 31

/-- The year of a date, if digits and a dash come next. -/
def year? : List Char → Option (Nat × List Char)
  | a :: b :: c :: d :: '-' :: rest =>
    let ds := [a, b, c, d]
    if ds.all Char.isDigit then some (ds.foldl (fun n c ↦ 10 * n + (c.toNat - 48)) 0, rest) else none
  | _ => none

/-- Read a date after its year. -/
def dateAfter (year : Nat) : Scan String := do
  let month ← twoDigits 1 12
  Scan.expect "-"
  let day ← twoDigits 1 (daysIn year month)
  return padZeros 4 year ++ "-" ++ padZeros 2 month ++ "-" ++ padZeros 2 day

/-- The hour of a time, if digits and a colon come next. -/
def hour? (s : List Char) : Option (Nat × List Char) :=
  match twoDigits? 0 23 s with
  | some (hour, ':' :: rest) => some (hour, rest)
  | _ => none

/-- Decimals of a second, if any: nine at most count, and no zeros at the end. -/
def decimals : Scan String := fun s ↦
  match s with
  | '.' :: rest =>
    match rest.takeWhile Char.isDigit with
    | [] => .ok ("", s)
    | ds =>
      let kept := ((ds.take 9).reverse.dropWhile (· == '0')).reverse
      .ok (if kept.isEmpty then "" else String.ofList ('.' :: kept), rest.dropWhile Char.isDigit)
  | _ => .ok ("", s)

/-- Read a time after its hour. -/
def timeAfter (hour : Nat) : Scan String := do
  let minute ← twoDigits 0 59
  Scan.expect ":"
  let second ← twoDigits 0 60
  let rest ← decimals
  return padZeros 2 hour ++ ":" ++ padZeros 2 minute ++ ":" ++ padZeros 2 second ++ rest

/-- Read a distance after its sign. No distance at all has a plus. -/
def distanceAfter (sign : String) : Scan String := do
  let hour ← twoDigits 0 23
  Scan.expect ":"
  let minute ← twoDigits 0 59
  let sign := if hour = 0 ∧ minute = 0 then "+" else sign
  return sign ++ padZeros 2 hour ++ ":" ++ padZeros 2 minute

/-- The distance to universal time, if one is given. -/
def distance : Scan String := do
  if ← Scan.accept ['Z'] then return "Z"
  else if ← Scan.accept ['z'] then return "Z"
  else if ← Scan.accept ['+'] then distanceAfter "+"
  else if ← Scan.accept ['-'] then distanceAfter "-"
  else return ""

/-- What separates a date from the hour of a time, if that comes next. -/
def hourAfterDate? : List Char → Option (Nat × List Char)
  | c :: rest => if c = 'T' ∨ c = 't' ∨ c = ' ' then hour? rest else none
  | [] => none

/-- The time after a date, if there is one. -/
def timePart : Scan String := fun s ↦
  match hourAfterDate? s with
  | none => .ok ("", s)
  | some (hour, rest) => (do return "T" ++ (← timeAfter hour) ++ (← distance) : Scan String) rest

/-- A moment; none if what comes next is no date or time. -/
def moment? : Scan (Option String) := fun s ↦
  match year? s, hour? s with
  | some (year, rest), _ =>
    (do return some ((← dateAfter year) ++ (← timePart)) : Scan (Option String)) rest
  | none, some (hour, rest) => (some <$> timeAfter hour : Scan (Option String)) rest
  | none, none => .ok (none, s)

end LayeredConfig.Toml
