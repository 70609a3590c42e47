import Testbed.Toml.Basic

/-!
# Documents

A document is a list of statements: assignments of a value to a dotted key, and headers that open a
table or one more table of an array of tables.  A table may be spread over several statements, but
only in certain ways.  A table with a header of its own has no second one and takes no entries from
dotted keys elsewhere; a table that dotted keys have made has no header at all; and a value that is
written in one piece takes no more entries.
-/

namespace Testbed.Toml

/-- How a table that is still open came about. -/
inductive Origin where
  /-- By its own header, or as the root of a document or of a table in braces. -/
  | header
  /-- On the way to the table of a header. -/
  | passage
  /-- By a dotted key. -/
  | dotted
  deriving DecidableEq

/-- What an open table holds under a key. -/
inductive Node where
  /-- A value that is complete. -/
  | closed (value : Toml)
  | table (origin : Origin) (entries : List (String × Node))
  /-- An array of tables, each of which had a header; the last one is open. -/
  | tables (items : List (List (String × Node)))

/-- A table that takes entries. -/
structure OpenTable where
  origin : Origin
  entries : List (String × Node)

namespace OpenTable

/-- What stands under a key. -/
def find? (t : OpenTable) (key : String) : Option Node :=
  (t.entries.find? (·.1 == key)).map (·.2)

/-- Put a node under a key, in place of the one that is there. -/
def put (t : OpenTable) (key : String) (node : Node) : OpenTable :=
  if t.entries.any (·.1 == key) then
    { t with entries := t.entries.map fun e => if e.1 == key then (key, node) else e }
  else { t with entries := t.entries ++ [(key, node)] }

/-- Change the table that a path leads to.  A table that is missing on the way is made; a value
that is complete stops the way, and so does a table with a header of its own if the path belongs
to a dotted key.  In an array of tables the way goes on in the last one. -/
def change (dotted : Bool) (f : OpenTable → Option OpenTable) :
    List String → OpenTable → Option OpenTable
  | [], t => f t
  | key :: path, t =>
    match t.find? key with
    | none =>
      (change dotted f path ⟨if dotted then .dotted else .passage, []⟩).map fun s =>
        t.put key (.table s.origin s.entries)
    | some (.closed _) => none
    | some (.table origin entries) =>
      if dotted && origin = .header then none
      else
        (change dotted f path ⟨origin, entries⟩).map fun s => t.put key (.table s.origin s.entries)
    | some (.tables items) =>
      (items.getLast?).bind fun last =>
        (change dotted f path ⟨.header, last⟩).map fun s =>
          t.put key (.tables (items.dropLast ++ [s.entries]))

/-- Enter a value under a dotted key, given by the keys on the way and the last one.  A dotted key
leads to a table that dotted keys have made. -/
def assign (t : OpenTable) (path : List String) (key : String) (value : Toml) :
    Option OpenTable :=
  t.change true (fun t =>
    if t.origin = .dotted ∧ path = [] ∨ t.origin ≠ .dotted ∧ path ≠ [] then none
    else if (t.find? key).isSome then none
    else some (t.put key (.closed value))) path

/-- Give a table its header. -/
def openTable (t : OpenTable) (path : List String) (key : String) : Option OpenTable :=
  t.change false (fun t =>
    match t.find? key with
    | none => some (t.put key (.table .header []))
    | some (.table .passage entries) => some (t.put key (.table .header entries))
    | _ => none) path

/-- Add a table to an array of tables. -/
def openItem (t : OpenTable) (path : List String) (key : String) : Option OpenTable :=
  t.change false (fun t =>
    match t.find? key with
    | none => some (t.put key (.tables [[]]))
    | some (.tables items) => some (t.put key (.tables (items ++ [[]])))
    | _ => none) path

/-- A table without entries that has a header. -/
def empty : OpenTable := ⟨.header, []⟩

end OpenTable

mutual

/-- The value of a node that takes no more entries. -/
def Node.close : Node → Toml
  | .closed value => value
  | .table _ entries => .table (closeEntries entries)
  | .tables items => .array (closeItems items)

/-- The values of the entries of a table. -/
def closeEntries : List (String × Node) → List (String × Toml)
  | [] => []
  | (key, node) :: rest => (key, node.close) :: closeEntries rest

/-- The tables of an array of tables. -/
def closeItems : List (List (String × Node)) → List Toml
  | [] => []
  | entries :: rest => .table (closeEntries entries) :: closeItems rest

end

/-- An assignment: the keys on the way, the last key, and the value. -/
structure Assignment where
  path : List String
  key : String
  value : Toml

/-- The table of some assignments. -/
def tableOf (assignments : List Assignment) : Option Toml :=
  (assignments.foldlM (fun (t : OpenTable) (a : Assignment) => t.assign a.path a.key a.value)
    OpenTable.empty).map fun t => .table (closeEntries t.entries)

/-- A statement of a document. -/
inductive Statement where
  | assignment (a : Assignment)
  | table (path : List String) (key : String)
  | item (path : List String) (key : String)

/-- A document that is being put together: all tables, and the path of the one that the last header
has opened. -/
structure Draft where
  root : OpenTable
  current : List String

/-- Add a statement. -/
def Draft.add (d : Draft) : Statement → Option Draft
  | .assignment a =>
    (d.root.change false (fun t => t.assign a.path a.key a.value) d.current).map fun root =>
      { d with root }
  | .table path key => (d.root.openTable path key).map fun root => ⟨root, path ++ [key]⟩
  | .item path key => (d.root.openItem path key).map fun root => ⟨root, path ++ [key]⟩

/-- The table that a list of statements describes, if they go together. -/
def ofStatements? (statements : List Statement) : Option (List (String × Toml)) :=
  (statements.foldlM Draft.add ⟨OpenTable.empty, []⟩).map fun d => closeEntries d.root.entries

end Testbed.Toml
