import LayeredConfig.Ini.Reader
import LayeredConfig.Table
import LayeredConfig.Text.Lowercase

/-!
# Tables of an INI text

The name of a section, or of an entry in front of the first one, is a path if it consists of plain
identifiers with dots between them; then sections nest. Any other name is used whole. Names and keys
are read in lower case, and the keys of a section are never paths.
-/

namespace LayeredConfig.Ini

/-- Characters of an identifier in a path. -/
def isIdentifier (c : Char) : Bool := c.isAlphanum || c == ' ' || c == '_' || c == '-'

/-- The path that a name spells, in lower case. -/
def pathOf (name : String) : String × List String :=
  let (first, others) := segments name
  if (first :: others).all fun s ↦ !s.isEmpty && s.toList.all isIdentifier then
    (Text.lower first, others.map Text.lower)
  else (Text.lower name, [])

/-- Put an entry from in front of the first section. -/
def putGeneral (t : Table) (e : String × String) : Table :=
  Table.put t (pathOf e.1).1 (pathOf e.1).2 (.string e.2)

/-- The entries of a section with keys in lower case. -/
def entriesOf (entries : Keyed String) : Table :=
  Keyed.ofList (entries.map fun e ↦ (Text.lower e.1, .string e.2))

/-- Put the entries of a section into the table at its path, which is created if need be. -/
def putSection (t : Table) (s : String × Keyed String) : Table :=
  let (first, rest) := pathOf s.1
  match Table.at? t first rest with
  | some (.table inner) => Table.put t first rest (.table (Keyed.overlay inner (entriesOf s.2)))
  | some _ => if s.2.isEmpty then t else Table.put t first rest (.table (entriesOf s.2))
  | none => Table.put t first rest (.table (entriesOf s.2))

/-- The entries in front of the first section. A section that is spelt like one takes its place. -/
def Document.standing (d : Document) : Keyed String :=
  d.general.filter fun e ↦ !Keyed.contains e.1 d.sections

/-- The table of a text: first the entries in front, then the sections, by name. -/
def Document.table (d : Document) : Table :=
  d.sections.foldl putSection (d.standing.foldl putGeneral [])

/-- Read a text as a table. -/
def readTable (text : String) : Except SyntaxError Table := (read text).map Document.table

end LayeredConfig.Ini
