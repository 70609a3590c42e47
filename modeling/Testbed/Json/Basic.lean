import Testbed.Binary64.Basic
import Testbed.Table

/-!
# JSON documents

A document is kept as it was written: the members of an object in their order, repeated names
included.  `settle` gives the value that a document denotes, in which the last of several members of
one name counts and the members stand in ascending order of their names.
-/

namespace Testbed

/-- A JSON number: an integer, or a finite double. -/
inductive Json.Number where
  | int (value : Int)
  | float (value : Binary64)
  deriving DecidableEq

/-- A JSON document. -/
inductive Json where
  | null
  | bool (value : Bool)
  | number (value : Json.Number)
  | string (value : String)
  | array (items : List Json)
  | object (members : List (String × Json))
  deriving Inhabited

namespace Json

/-- The integers that stay integers: those of 64 bits, with a sign or without. -/
def IsInteger (n : Int) : Prop := -2 ^ 63 ≤ n ∧ n < 2 ^ 64

instance (n : Int) : Decidable (IsInteger n) := inferInstanceAs (Decidable (_ ∧ _))

mutual

/-- The value that a document denotes. -/
def settle : Json → Json
  | .array items => .array (settleItems items)
  | .object members => .object (settleMembers members)
  | .null => .null
  | .bool b => .bool b
  | .number n => .number n
  | .string s => .string s

/-- The values of the items of an array. -/
def settleItems : List Json → List Json
  | [] => []
  | item :: rest => settle item :: settleItems rest

/-- The members of an object in ascending order; a member that is repeated later does not count. -/
def settleMembers : List (String × Json) → List (String × Json)
  | [] => []
  | (name, value) :: rest =>
    let later := settleMembers rest
    if later.any (·.1 == name) then later else Table.insertEntry name (settle value) later

end

mutual

/-- How many arrays and objects are nested in one another at the deepest place. -/
def depth : Json → Nat
  | .array items => depthItems items + 1
  | .object members => depthMembers members + 1
  | .null => 0
  | .bool _ => 0
  | .number _ => 0
  | .string _ => 0

/-- The greatest depth of the items. -/
def depthItems : List Json → Nat
  | [] => 0
  | item :: rest => max (depth item) (depthItems rest)

/-- The greatest depth of the members. -/
def depthMembers : List (String × Json) → Nat
  | [] => 0
  | (_, value) :: rest => max (depth value) (depthMembers rest)

end

/-- Variables: a table of JSON values. -/
abbrev Vars := Table Json

/-- The object with the entries of a table. -/
def ofTable (t : Vars) : Json := .object t.entries

/-- The array of some texts. -/
def ofStrings (texts : List String) : Json := .array (texts.map .string)

/-- The object with some members, settled at the top. -/
def ofMembers (members : List (String × Json)) : Json := ofTable (Table.ofList members)

end Json

end Testbed
