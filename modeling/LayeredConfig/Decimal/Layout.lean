import LayeredConfig.Decimal.Shortest

/-!
# Writing decimals

Where the point goes and when an exponent is written are decisions of a format; they stand in one
record, and `Layout.write` carries them out.
-/

namespace LayeredConfig.Decimal

/-- How the digits of a double become text. -/
structure Layout where
  /-- Leading exponents from here … -/
  positionalFrom : Int
  /-- … to here are written without an exponent. -/
  positionalTo : Int
  /-- Whole numbers written without an exponent end in this. -/
  wholeTail : String
  /-- Between the digits and a positive exponent. -/
  positiveMark : String
  /-- Between the digits and a negative exponent. -/
  negativeMark : String

/-- Zeros in a row. -/
def zeros (n : Nat) : List Char := List.replicate n '0'

/-- Text of the magnitude. -/
def Layout.magnitude (f : Layout) (d : Digits) : String :=
  let ds := Nat.toDigits 10 d.digits
  let lead : Int := d.exponent + (ds.length : Int) - 1
  if f.positionalFrom ≤ lead ∧ lead ≤ f.positionalTo then
    if 0 ≤ d.exponent then String.ofList (ds ++ zeros d.exponent.toNat) ++ f.wholeTail
    else if 0 ≤ lead then
      let whole := lead.toNat + 1
      String.ofList (ds.take whole ++ '.' :: ds.drop whole)
    else String.ofList ('0' :: '.' :: (zeros (-lead - 1).toNat ++ ds))
  else
    let body := match ds with
      | [] => ""
      | [c] => String.ofList [c]
      | c :: rest => String.ofList (c :: '.' :: rest)
    body ++ (if 0 ≤ lead then f.positiveMark else f.negativeMark) ++ toString lead.natAbs

/-- Text of a finite double. -/
def Layout.write (f : Layout) (b : Bits) : String :=
  (if b.negative then "-" else "") ++ f.magnitude b.shortest

end LayeredConfig.Decimal
