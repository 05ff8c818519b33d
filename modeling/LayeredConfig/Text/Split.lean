import LayeredConfig.Text.Blank

/-!
# Cutting text

Splitting at a character, lines, leading and trailing parts, ASCII lower case and padding. All of it
works on characters, so that laws are plain inductions on lists.
-/

namespace LayeredConfig.Text

/-- Cut at every `sep`; the first piece stands apart, because there always is one. -/
def cut (sep : Char) : List Char → List Char × List (List Char)
  | [] => ([], [])
  | c :: cs =>
    let (first, others) := cut sep cs
    if c = sep then ([], first :: others) else (c :: first, others)

/-- The pieces between the separators, in order. -/
def splitOn (sep : Char) (s : String) : List String :=
  let (first, others) := cut sep s.toList
  (first :: others).map String.ofList

/-- Cut at the first `sep` only. -/
def cutOnce (sep : Char) : List Char → Option (List Char × List Char)
  | [] => none
  | c :: cs =>
    if c = sep then some ([], cs)
    else (cutOnce sep cs).map fun (before, rest) ↦ (c :: before, rest)

/-- What follows `lead`, if the text starts with it. -/
def after? (lead s : String) : Option String :=
  (lead.toList.isPrefixOf? s.toList).map String.ofList

/-- What precedes `tail`, if the text ends with it. -/
def before? (tail s : List Char) : Option (List Char) :=
  (tail.reverse.isPrefixOf? s.reverse).map List.reverse

/-- Whether `needle` stands somewhere in the text. -/
def occursIn (needle : List Char) : List Char → Bool
  | [] => needle.isEmpty
  | c :: cs => needle.isPrefixOf (c :: cs) || occursIn needle cs

/-- Lower case for the ASCII letters, all else as it is. -/
def lowerAscii (s : String) : String := String.ofList (s.toList.map Char.toLower)

/-- The carriage return of a line break is no part of the line. -/
def dropReturn (line : List Char) : List Char :=
  if line.getLast? = some '\r' then line.dropLast else line

/-- Lines without their breaks; text after the last break is a line only if there is some. -/
def lines (s : List Char) : List (List Char) :=
  match cut '\n' s with
  | (first, others) => go first others
where
  go (line : List Char) : List (List Char) → List (List Char)
    | [] => if line.isEmpty then [] else [line]
    | next :: others => dropReturn line :: go next others

/-- Fill up with spaces on the right to at least `width` characters. -/
def padRight (width : Nat) (s : String) : String :=
  s ++ String.ofList (List.replicate (width - s.length) ' ')

/-- Join with a separator between the parts. -/
def join (sep : String) : List String → String
  | [] => ""
  | [s] => s
  | s :: t :: rest => s ++ sep ++ join sep (t :: rest)

end LayeredConfig.Text
