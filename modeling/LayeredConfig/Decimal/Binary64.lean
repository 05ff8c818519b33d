/-!
# Binary64 numbers

A double is its 64 bits. Here they are read as `m · 2 ^ e` and written from an exact decimal, rounded
to the nearest double, a tie to the even one. All arithmetic is exact, on `Nat`.
-/

namespace LayeredConfig.Decimal

/-- The bits of a binary64 number. -/
abbrev Bits := UInt64

namespace Bits

/-- Sign bit. -/
def negative (b : Bits) : Bool := b >>> 63 == 1

/-- Biased exponent. -/
def biased (b : Bits) : Nat := ((b >>> 52) &&& 0x7FF).toNat

/-- Fraction field. -/
def fraction (b : Bits) : Nat := (b &&& 0xFFFFFFFFFFFFF).toNat

/-- Neither an infinity nor a NaN. -/
def finite (b : Bits) : Bool := b.biased != 0x7FF

/-- One of the two zeros. -/
def isZero (b : Bits) : Bool := b <<< 1 == 0

/-- The magnitude of a finite number is `significand · 2 ^ (scale - 1074)`. -/
def significand (b : Bits) : Nat := if b.biased = 0 then b.fraction else b.fraction + Nat.pow 2 52

/-- Exponent above the smallest one. -/
def scale (b : Bits) : Nat := b.biased - 1

/-- The two zeros are one number; apart from them equal bits are equal numbers. -/
def same (a b : Bits) : Bool := a == b || (a.isZero && b.isZero)

/-- Positive infinity. -/
def infinity : Bits := 0x7FF0000000000000

end Bits

/-- `num / den` rounded to a whole number, a tie to the even one. -/
def roundQuotient (num den : Nat) : Nat :=
  let q := num / den
  let r := num % den
  if 2 * r < den then q else if den < 2 * r then q + 1 else q + q % 2

/-- The scale whose significands hold `num / den`: the quotient is brought below `2 ^ 53`. -/
def scaleFor (num den : Nat) : Nat :=
  -- with the fraction written in units of `2 ^ -1074`, the bits above 53 are the scale
  (num * Nat.pow 2 1074 / den).log2 - 52

/-- The double nearest to `num / den`, without a sign; infinity from half a unit above the largest. -/
def nearest (num den : Nat) : Bits :=
  let s := scaleFor num den
  let m := roundQuotient (num * Nat.pow 2 1074) (den * Nat.pow 2 s)
  -- a significand that rounds up to `2 ^ 53` carries into the exponent field by itself
  let bits := s * Nat.pow 2 52 + m
  if bits < 0x7FF0000000000000 then UInt64.ofNat bits else Bits.infinity

/-- The double nearest to `digits · 10 ^ exponent`. Exponents far outside the range of doubles are
decided by the number of digits alone. -/
def ofDecimal (negative : Bool) (digits : Nat) (exponent : Int) : Bits :=
  let places : Int := exponent + (Nat.toDigits 10 digits).length
  let magnitude : Bits :=
    if digits = 0 ∨ places < -330 then 0
    else if 320 < places then Bits.infinity
    else if 0 ≤ exponent then nearest (digits * Nat.pow 10 exponent.toNat) 1
    else nearest digits (Nat.pow 10 (-exponent).toNat)
  if negative then magnitude ||| 0x8000000000000000 else magnitude

end LayeredConfig.Decimal
