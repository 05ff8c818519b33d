import LayeredConfig.Decimal.Binary64

/-!
# Shortest decimal digits

The fewest digits whose decimal reads back as a given double, and of those decimals the one nearest
to it. Reals that read back as `m · 2 ^ e` are those between the midpoints to its neighbours, the
midpoints included iff `m` is even. On the grid of decimals with `n` digits only the two points next
to the number need a look: if any point lies in the interval, so does one of them.
-/

namespace LayeredConfig.Decimal

/-- A decimal `digits · 10 ^ exponent`. -/
structure Digits where
  digits : Nat
  exponent : Int
  deriving DecidableEq, Repr

/-- The reals that read back as one double, as fractions over one denominator. -/
structure Interval where
  low : Nat
  mid : Nat
  high : Nat
  den : Nat
  closed : Bool

/-- The interval of a double, in units of `2 ^ -1076` so that midpoints are whole. -/
def Bits.interval (b : Bits) : Interval :=
  let unit := Nat.pow 2 (b.scale + 2)
  let mid := b.significand * unit
  -- below a power of two the neighbour is half as far, except next to the subnormal numbers
  let below := if b.fraction = 0 ∧ 1 < b.biased then unit / 4 else unit / 2
  { low := mid - below, mid := mid, high := mid + unit / 2, den := Nat.pow 2 1076,
    closed := b.significand % 2 == 0 }

/-- Whether `num / den` lies in the interval. -/
def Interval.holds (i : Interval) (num den : Nat) : Bool :=
  let x := num * i.den
  if i.closed then i.low * den ≤ x && x ≤ i.high * den else i.low * den < x && x < i.high * den

/-- The point `d · 10 ^ exponent` as a fraction. -/
def gridPoint (d : Nat) (exponent : Int) : Nat × Nat :=
  if 0 ≤ exponent then (d * Nat.pow 10 exponent.toNat, 1) else (d, Nat.pow 10 (-exponent).toNat)

/-- The grid neighbour that lies in the interval; of two, the nearer, the lower one on a tie. -/
def Interval.onGrid? (i : Interval) (exponent : Int) : Option Nat :=
  let (unit, den) := gridPoint 1 exponent
  let d := i.mid * den / (i.den * unit)
  let lowFits := d != 0 && i.holds (d * unit) den
  let highFits := i.holds ((d + 1) * unit) den
  if lowFits && highFits then
    let beneath := i.mid * den - d * unit * i.den
    let above := (d + 1) * unit * i.den - i.mid * den
    some (if above < beneath then d + 1 else d)
  else if lowFits then some d
  else if highFits then some (d + 1)
  else none

/-- Decimal exponent of the leading digit. -/
def Interval.leading (i : Interval) : Int :=
  ((Nat.toDigits 10 (i.mid * Nat.pow 10 400 / i.den)).length : Int) - 401

/-- Try grids of `n`, `n + 1`, … digits, `fuel` of them. -/
def Interval.search (i : Interval) (n : Nat) : Nat → Digits
  | 0 => ⟨0, 0⟩
  | fuel + 1 =>
    let exponent := i.leading - (n : Int) + 1
    match i.onGrid? exponent with
    | some d => ⟨d, exponent⟩
    | none => i.search (n + 1) fuel

/-- Remove zeros at the end of the digits. -/
def Digits.normalize (d : Digits) : Nat → Digits
  | 0 => d
  | fuel + 1 =>
    if d.digits ≠ 0 ∧ d.digits % 10 = 0 then
      Digits.normalize ⟨d.digits / 10, d.exponent + 1⟩ fuel
    else d

/-- The shortest digits of a finite double; seventeen are always enough. -/
def Bits.shortest (b : Bits) : Digits :=
  if b.isZero then ⟨0, 0⟩ else (b.interval.search 1 17).normalize 17

end LayeredConfig.Decimal
