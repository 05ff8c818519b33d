/-!
# Hexadecimal numbers

Digits of either case, and the character that a number stands for.
-/

namespace LayeredConfig.Text

/-- The value of a digit. -/
def hexDigit? (c : Char) : Option Nat :=
  if c.isDigit then some (c.toNat - 48)
  else if 'a' ≤ c ∧ c ≤ 'f' then some (c.toNat - 87)
  else if 'A' ≤ c ∧ c ≤ 'F' then some (c.toNat - 55)
  else none

/-- Whether a character is a digit of base sixteen. -/
def isHexDigit (c : Char) : Bool := (hexDigit? c).isSome

/-- The number that digits spell, from a number that stands before them. -/
def hexFrom (n : Nat) : List Char → Option Nat
  | [] => some n
  | c :: rest =>
    match hexDigit? c with
    | some d => hexFrom (16 * n + d) rest
    | none => none

/-- The number that at least one digit spells. -/
def hex? : List Char → Option Nat
  | [] => none
  | digits => hexFrom 0 digits

/-- The character with a number; surrogates and numbers beyond the last plane have none. -/
def scalar? (n : Nat) : Option Char := if n.isValidChar then some (Char.ofNat n) else none

end LayeredConfig.Text
