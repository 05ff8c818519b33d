import LayeredConfig.Text.Blank

/-!
# Ports

A port is a number of 16 bits. It is read from decimal digits, after an optional plus and without the
blanks around it, and keeps the text it was given as.
-/

namespace LayeredConfig

/-- A port as it was given. -/
structure Port where
  number : Nat
  text : String
  deriving DecidableEq, Repr

/-- Why a text is no port. -/
inductive PortError where
  | empty
  | invalidDigit
  | tooLarge
  deriving DecidableEq, Repr

/-- The cause in words. -/
def PortError.message : PortError → String
  | .empty => "cannot parse integer from empty string"
  | .invalidDigit => "invalid digit found in string"
  | .tooLarge => "number too large to fit in target type"

namespace Port

/-- The largest port. -/
def largest : Nat := 65535

/-- Read digits after a number that stands before them. The first fault counts. -/
def digitsFrom (n : Nat) : List Char → Except PortError Nat
  | [] => .ok n
  | c :: rest =>
    if !c.isDigit then .error .invalidDigit
    else
      let n := 10 * n + (c.toNat - 48)
      if largest < n then .error .tooLarge else digitsFrom n rest

/-- Read a number. -/
def number? : List Char → Except PortError Nat
  | [] => .error .empty
  | ['+'] => .error .invalidDigit
  | '+' :: digits => digitsFrom 0 digits
  | digits => digitsFrom 0 digits

/-- Read a port. -/
def ofText (text : String) : Except PortError Port :=
  (number? (Text.trim text.toList)).map fun number ↦ { number, text }

end Port

end LayeredConfig
