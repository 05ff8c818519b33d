import LayeredConfig.Text.Split

/-!
# Placeholders

A settings text may name environment variables as `${NAME}`. Lines that are comments are left as they
are. On any other line the placeholders are replaced one after the other, in the order in which the
line names them, each at every place where it then stands.
-/

namespace LayeredConfig.Placeholder

/-- Characters that a name may begin with. -/
def isNameStart (c : Char) : Bool := c.isUpper || c == '_'

/-- Characters of a name. -/
def isNameChar (c : Char) : Bool := isNameStart c || c.isDigit

/-- The name of the placeholder at the head of a text. -/
def at? : List Char → Option (List Char)
  | '$' :: '\x7b' :: c :: rest =>
    if isNameStart c ∧ (rest.dropWhile isNameChar).head? = some '\x7d' then
      some (c :: rest.takeWhile isNameChar)
    else none
  | _ => none

/-- The names of the placeholders in a text, in order. -/
def names : List Char → List (List Char)
  | [] => []
  | c :: rest =>
    match at? (c :: rest) with
    | some name => name :: names rest
    | none => names rest

/-- The text of a placeholder. -/
def spell (name : List Char) : List Char := ['$', '\x7b'] ++ name ++ ['\x7d']

/-- Replace every occurrence of a text that is not empty. The first `skip` characters belong to an
occurrence that has been replaced already. -/
def replaceFrom (old new : List Char) : Nat → List Char → List Char
  | _, [] => []
  | skip + 1, _ :: rest => replaceFrom old new skip rest
  | 0, c :: rest =>
    if old.isPrefixOf (c :: rest) then new ++ replaceFrom old new (old.length - 1) rest
    else c :: replaceFrom old new 0 rest

/-- Replace every occurrence of a text that is not empty. -/
def replaceAll (old new s : List Char) : List Char := replaceFrom old new 0 s

/-- Whether a line is a comment. See `SPEC_FULL.md:251`. -/
def isComment (line : List Char) : Bool := (Text.trimStart line).head? == some '#'

/-- Replace one placeholder in a line, if its variable is set. -/
def replaceOne (lookup : String → Option String) (line name : List Char) : List Char :=
  match lookup (String.ofList name) with
  | some value => replaceAll (spell name) value.toList line
  | none => line

/-- Replace the placeholders of a line. -/
def replaceLine (lookup : String → Option String) (line : List Char) : List Char :=
  if isComment line then line else (names line).foldl (replaceOne lookup) line

/-- The names on all lines but comments. -/
def allNames (lines : List (List Char)) : List String :=
  (lines.filter fun line ↦ !isComment line).flatMap fun line ↦ (names line).map String.ofList

/-- Add what is not there yet. -/
def addNew (names : List String) (name : String) : List String :=
  if names.contains name then names else names ++ [name]

/-- Replace all placeholders of a text, or name the variables that are not set.
See `SPEC_FULL.md:250–251`. -/
def substitute (lookup : String → Option String) (text : String) : Except (List String) String :=
  let lines := Text.lines text.toList
  match (allNames lines).filter fun name ↦ (lookup name).isNone with
  | [] => .ok (String.ofList (lines.flatMap fun line ↦ replaceLine lookup line ++ ['\n']))
  | missing => .error (missing.foldl addNew [])

end LayeredConfig.Placeholder
