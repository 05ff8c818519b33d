import LayeredConfig.Syntax
import LayeredConfig.Value

/-!
# Tables under construction

A TOML text may reach one table in several ways, and which ways are allowed depends on how the table
came about. While a text is read each table carries its form and keeps its entries in the order in
which they came; `Branch.assign`, `Branch.openTable` and `Branch.openElement` refuse what the forms
forbid. The finished tree is a value, with its keys in order.
-/

namespace LayeredConfig.Toml

/-- How a table came about. -/
inductive Form where
  /-- By a heading of its own. -/
  | header
  /-- By the heading of a table inside it. -/
  | implied
  /-- By a dotted key. -/
  | dotted
  /-- In braces. -/
  | inline
  deriving DecidableEq, Repr

/-- A value or table under construction. The elements of an array of tables are listed from the
latest back. -/
inductive Node where
  | leaf (v : Value)
  | array (items : List Node)
  | table (form : Form) (entries : List (String × Node))
  | elements (latestFirst : List (List (String × Node)))

/-- The entries of a table under construction, in the order in which they came. -/
abbrev Branch := List (String × Node)

/-- A dotted key: the tables that it goes through, and the entry. -/
structure Key where
  path : List String
  last : String

/-- Who goes through tables: a heading or a dotted key. -/
inductive Walk where
  | heading
  | dotted
  deriving DecidableEq, Repr

/-- Whether a table of some form may be gone through. -/
def Walk.passes : Walk → Form → Bool
  | .heading, form => form != .inline
  | .dotted, form => form == .implied || form == .dotted

/-- The form of tables that are created on the way. -/
def Walk.creates : Walk → Form
  | .heading => .implied
  | .dotted => .dotted

/-- Put an entry in the place of the one with its key, or at the end. -/
def Branch.put (k : String) (n : Node) : Branch → Branch
  | [] => [(k, n)]
  | e :: rest => if e.1 = k then (k, n) :: rest else e :: Branch.put k n rest

/-- Change the table at the end of a path. The last element stands for an array of tables. -/
def Walk.change (w : Walk) (f : Form → Branch → Except SyntaxRule Branch) :
    List String → Form → Branch → Except SyntaxRule Branch
  | [], form, b => f form b
  | k :: rest, _, b =>
    match Keyed.get? k b with
    | none => do return Branch.put k (.table w.creates (← w.change f rest w.creates [])) b
    | some (.table form inner) =>
      if w.passes form then do return Branch.put k (.table form (← w.change f rest form inner)) b
      else .error (.duplicateKey k)
    | some (.elements (latest :: earlier)) => do
      return Branch.put k (.elements ((← w.change f rest .header latest) :: earlier)) b
    | some _ => .error (.duplicateKey k)

namespace Branch

/-- Put an entry under a dotted key. The table that takes it must have been made by dotted keys, if
the key goes through tables at all, and must not have the entry yet. -/
def assign (key : Key) (n : Node) (form : Form) (b : Branch) : Except SyntaxRule Branch :=
  Walk.dotted.change add key.path form b
where
  add (form : Form) (b : Branch) : Except SyntaxRule Branch :=
    if !key.path.isEmpty && form != .dotted then .error (.duplicateKey key.last)
    else if Keyed.contains key.last b then .error (.duplicateKey key.last)
    else .ok (Branch.put key.last n b)

/-- Open the table of a heading. It may exist only as implied by other headings; then it moves behind
the other entries. -/
def openTable (key : Key) (root : Branch) : Except SyntaxRule Branch :=
  Walk.heading.change add key.path .header root
where
  add (_ : Form) (b : Branch) : Except SyntaxRule Branch :=
    match Keyed.get? key.last b with
    | none => .ok (Branch.put key.last (.table .header []) b)
    | some (.table .implied inner) =>
      .ok (Branch.put key.last (.table .header inner) (Keyed.erase key.last b))
    | some _ => .error (.duplicateKey key.last)

/-- Open one more element of an array of tables. -/
def openElement (key : Key) (root : Branch) : Except SyntaxRule Branch :=
  Walk.heading.change add key.path .header root
where
  add (_ : Form) (b : Branch) : Except SyntaxRule Branch :=
    match Keyed.get? key.last b with
    | none => .ok (Branch.put key.last (.elements [[]]) b)
    | some (.elements earlier) => .ok (Branch.put key.last (.elements ([] :: earlier)) b)
    | some _ => .error (.duplicateKey key.last)

end Branch

mutual

/-- The finished value. -/
def Node.value : Node → Value
  | .leaf v => v
  | .array items => .array (itemValues items)
  | .table _ entries => .table (Keyed.ofList (entryValues entries))
  | .elements latestFirst => .array (elementValues latestFirst).reverse

/-- The values of items. -/
def itemValues : List Node → List Value
  | [] => []
  | n :: rest => n.value :: itemValues rest

/-- The values of entries, in the order in which they came. -/
def entryValues : List (String × Node) → List (String × Value)
  | [] => []
  | (k, n) :: rest => (k, n.value) :: entryValues rest

/-- The values of elements. -/
def elementValues : List (List (String × Node)) → List Value
  | [] => []
  | entries :: rest => .table (Keyed.ofList (entryValues entries)) :: elementValues rest

end

/-- The table of finished values. -/
def Branch.table (b : Branch) : Table := Keyed.ofList (entryValues b)

end LayeredConfig.Toml
