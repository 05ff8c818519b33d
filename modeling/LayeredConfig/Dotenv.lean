import LayeredConfig.Text.Alphanumeric
import LayeredConfig.Text.Blank
import LayeredConfig.World

/-!
# Variables from a file

A file `.env` in the working directory sets environment variables that are not set yet. A line is an
assignment, a comment or empty; an assignment goes on over line breaks while a quote is open. Reading
stops at the first line that is none of these, and what was set before it stays set.
-/

namespace LayeredConfig.Dotenv

/-! ## Lines -/

/-- Where the reading of a line stands. -/
inductive Quoting where
  | complete
  | blank
  | escape
  | strong
  | strongEscape
  | weak
  | weakEscape
  deriving DecidableEq, Repr

/-- Outside quotes, what a character leads to. -/
def Quoting.openBy (c : Char) : Quoting :=
  if c = '\\' then .escape else if c = '"' then .weak else if c = '\'' then .strong else .complete

/-- What one character leads to. -/
def Quoting.next : Quoting → Char → Quoting
  | .complete, c => if Text.isBlank c ∧ c ≠ '\n' ∧ c ≠ '\r' then .blank else openBy c
  | .blank, c => openBy c
  | .escape, _ => .complete
  | .strong, c => if c = '\\' then .strongEscape else if c = '\'' then .complete else .strong
  | .strongEscape, _ => .strong
  | .weak, c => if c = '\\' then .weakEscape else if c = '"' then .complete else .weak
  | .weakEscape, _ => .weak

/-- Follow the characters of a line. A number sign after a blank begins a comment; then what stands
in front of it is given. -/
def Quoting.run (q : Quoting) : List Char → Except (List Char) Quoting
  | [] => .ok q
  | c :: rest =>
    if q = .blank ∧ c = '#' then .error []
    else (q.next c |>.run rest).mapError (c :: ·)

/-- A line without its break. -/
def dropBreak (line : List Char) : List Char :=
  match line.reverse with
  | '\n' :: '\r' :: rest => rest.reverse
  | '\n' :: rest => rest.reverse
  | _ => line

/-- Join lines while a quote is open. A line that is no text, or a quote that is open at the end,
yields nothing. -/
def joinLines (pending : List Char) (q : Quoting) :
    List (Option (List Char)) → List (Option (List Char))
  | [] => if q = .complete then [] else [none]
  | none :: _ => [none]
  | some line :: rest =>
    if (Text.trimStart (pending ++ line)).head? = some '#' then some [] :: joinLines [] .complete rest
    else
      match q.run line with
      | .error front => some (pending ++ front) :: joinLines [] .complete rest
      | .ok .complete => some (dropBreak (pending ++ line)) :: joinLines [] .complete rest
      | .ok q => joinLines (pending ++ line) q rest

/-! ## Values -/

/-- What the next character of a value belongs to. -/
inductive Mode where
  | plain
  | escape
  | strong
  | name
  | braces
  | ending
  | done
  deriving DecidableEq, Repr

/-- A value being read; `output` and `name` are in reverse. -/
structure Reading where
  mode : Mode := .plain
  weak : Bool := false
  name : List Char := []
  output : List Char := []

/-- Add characters to the output. -/
def Reading.emit (r : Reading) (cs : List Char) : Reading := { r with output := cs.reverse ++ r.output }

/-- Replace the name that has been read by its value. -/
def Reading.expand (lookup : String → String) (r : Reading) : Reading :=
  { r with name := [] }.emit (lookup (String.ofList r.name.reverse)).toList

/-- A character after a backslash. -/
def Reading.unescape (r : Reading) (c : Char) : Option Reading :=
  if c = 'n' then some ({ r with mode := .plain }.emit ['\n'])
  else if c = '\\' ∨ c = '\'' ∨ c = '"' ∨ c = '$' ∨ c = ' ' then
    some ({ r with mode := .plain }.emit [c])
  else none

/-- A character outside of everything but perhaps double quotes. -/
def Reading.plain (r : Reading) (c : Char) : Reading :=
  if c = '$' then { r with mode := .name }
  else if c = '\\' then { r with mode := .escape }
  else if c = '"' then { r with weak := !r.weak }
  else if r.weak then r.emit [c]
  else if c = '\'' then { r with mode := .strong }
  else if c = ' ' ∨ c = '\t' then { r with mode := .ending }
  else r.emit [c]

/-- A character after a dollar sign and perhaps a part of a name. -/
def Reading.inName (lookup : String → String) (r : Reading) (c : Char) : Reading :=
  if Text.isAlphanumeric c then { r with name := c :: r.name }
  else if c = '\x7b' ∧ r.name.isEmpty then { r with mode := .braces }
  else if c = '$' then r.expand lookup
  else { r.expand lookup with mode := .plain }.emit [c]

/-- Read one character of a value. -/
def Reading.step (lookup : String → String) (r : Reading) (c : Char) : Option Reading :=
  match r.mode with
  | .plain => some (r.plain c)
  | .escape => r.unescape c
  | .strong => some (if c = '\'' then { r with mode := .plain } else r.emit [c])
  | .name => some (r.inName lookup c)
  | .braces =>
    some (if c = '\x7d' then { r.expand lookup with mode := .plain } else { r with name := c :: r.name })
  | .ending =>
    if c = ' ' ∨ c = '\t' then some r else if c = '#' then some { r with mode := .done } else none
  | .done => some r

/-- The value that a text spells. -/
def value? (lookup : String → String) (text : List Char) : Option String := do
  let r ← text.foldlM (Reading.step lookup) {}
  if r.mode = .braces ∨ r.mode = .strong ∨ r.weak then none
  else return String.ofList (r.expand lookup).output.reverse

/-! ## Assignments -/

/-- A name at the head of a text, and what follows it. -/
def key? : List Char → Option (String × List Char)
  | c :: rest =>
    let isKeyChar (c : Char) : Bool := c.isAlphanum || c == '_' || c == '.'
    if c.isAlpha ∨ c = '_' then
      some (String.ofList (c :: rest.takeWhile isKeyChar), Text.trimStart (rest.dropWhile isKeyChar))
    else none
  | [] => none

/-- What follows an equals sign. -/
def afterEquals? : List Char → Option (List Char)
  | '=' :: rest => some (Text.trimStart rest)
  | _ => none

/-- The name and the text of the value of an assignment. The word `export` may stand in front. -/
def assignment? (line : List Char) : Option (String × List Char) := do
  let (key, rest) ← key? line
  match afterEquals? rest with
  | some value => return (key, value)
  | none =>
    if key = "export" then
      let (key, rest) ← key? rest
      return (key, ← afterEquals? rest)
    else none

/-- Variables that are set, and values that the file has given to names. -/
structure Bindings where
  environment : Keyed String
  given : Keyed String := []

/-- The value of a name among variables written `NAME=value`. In a name with an equals sign, what
follows the sign has to be the beginning of the value. -/
def valueOf? (environment : Keyed String) (name : String) : Option String :=
  Keyed.get? name environment <|> do
    let (outer, inner) ← Text.cutOnce '=' name.toList
    let value ← Keyed.get? (String.ofList outer) environment
    Text.after? (String.ofList (inner ++ ['='])) value

/-- The value of a name in a substitution: the variable, or what the file gave to the name. -/
def Bindings.lookup (b : Bindings) (name : String) : String :=
  (valueOf? b.environment name <|> Keyed.get? name b.given).getD ""

/-- Set a variable, unless it is set. -/
def Bindings.bind (b : Bindings) (name value : String) : Bindings :=
  { environment :=
      if Keyed.contains name b.environment then b.environment
      else Keyed.insert name value b.environment
    given := Keyed.insert name value b.given }

/-- Follow one line. -/
def Bindings.take (b : Bindings) (line : List Char) : Option Bindings :=
  let line := Text.trim line
  if line.isEmpty ∨ line.head? = some '#' then some b
  else do
    let (key, text) ← assignment? line
    if text.head? = some '#' then return b.bind key ""
    return b.bind key (← value? b.lookup text)

/-- Follow lines up to the first that cannot be read. -/
def Bindings.takeAll (b : Bindings) : List (Option (List Char)) → Bindings
  | some line :: rest =>
    match b.take line with
    | some b => b.takeAll rest
    | none => b
  | _ => b

/-- The bytes of each line, its break included. -/
def byteLines (line : List UInt8) : List UInt8 → List (List UInt8)
  | [] => if line.isEmpty then [] else [line.reverse]
  | b :: rest =>
    if b = 10 then (b :: line).reverse :: byteLines [] rest else byteLines (b :: line) rest

/-- The characters of a line, if its bytes are text. -/
def lineText (bytes : List UInt8) : Option (List Char) :=
  (String.fromUTF8? (ByteArray.mk bytes.toArray)).map String.toList

/-- The bytes of a text after a byte order mark. -/
def afterMark : List UInt8 → List UInt8
  | 0xEF :: 0xBB :: 0xBF :: rest => rest
  | bytes => bytes

/-- Set the variables of a file. -/
def apply (environment : Keyed String) (bytes : ByteArray) : Keyed String :=
  let lines := (byteLines [] (afterMark bytes.toList)).map lineText
  (Bindings.takeAll { environment } (joinLines [] .complete lines)).environment

/-- Set the variables of the file `.env`, if there is one. -/
def load (w : World) : World :=
  match w.files.find ".env" with
  | .ok (.file _ bytes) => { w with environment := apply w.environment bytes }
  | _ => w

end LayeredConfig.Dotenv
