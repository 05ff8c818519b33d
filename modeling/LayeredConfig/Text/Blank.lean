/-!
# Blank characters

The 25 characters with the Unicode property White_Space, and trimming by them. Core's
`Char.isWhitespace` knows only some of them.
-/

namespace LayeredConfig.Text

/-- Characters with the property White_Space. -/
def isBlank (c : Char) : Bool :=
  let n := c.toNat
  (0x09 ≤ n && n ≤ 0x0D) || n == 0x20 || n == 0x85 || n == 0xA0 || n == 0x1680 ||
    (0x2000 ≤ n && n ≤ 0x200A) || n == 0x2028 || n == 0x2029 || n == 0x202F || n == 0x205F ||
    n == 0x3000

/-- Drop blanks at the start. -/
def trimStart (s : List Char) : List Char := s.dropWhile isBlank

/-- Drop blanks at the end. -/
def trimEnd (s : List Char) : List Char := (s.reverse.dropWhile isBlank).reverse

/-- Drop blanks at both ends. -/
def trim (s : List Char) : List Char := trimEnd (trimStart s)

/-- Whether nothing but blanks is there. -/
def allBlank (s : String) : Bool := s.toList.all isBlank

end LayeredConfig.Text
