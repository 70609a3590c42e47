import Testbed.Json.Printer
import Testbed.Json.Reader

/-!
# Decoding JSON

The types whose values a document can hold.  A document either has the form of a type or it has not:
there is no conversion between texts, numbers and truth values, except that an integer can be read
as a double.
-/

namespace Testbed.Json

/-- The value of a document as a value of a type. -/
abbrev Decoder (α : Type) := Json → Option α

namespace Decoder

/-- Any document, settled. -/
def value : Decoder Json := fun j => some j.settle

/-- A truth value. -/
def bool : Decoder Bool
  | .bool b => some b
  | _ => none

/-- A text. -/
def string : Decoder String
  | .string s => some s
  | _ => none

/-- An integer from a range. -/
def integer (least greatest : Int) : Decoder Int
  | .number (.int n) => if least ≤ n ∧ n ≤ greatest then some n else none
  | _ => none

/-- A double, or the double nearest to an integer. -/
def float : Decoder Binary64
  | .number (.float x) => some x
  | .number (.int n) => Binary64.ofInt n
  | _ => none

/-- A value that may be missing. -/
def nullable {α : Type} (decode : Decoder α) : Decoder (Option α)
  | .null => some none
  | j => (decode j).map some

/-- A list of values. -/
def list {α : Type} (decode : Decoder α) : Decoder (List α)
  | .array items => items.mapM decode
  | _ => none

/-- Name and value of each member; every one of them must have the form of the type. -/
def pairs {α : Type} (decode : Decoder α) : Decoder (List (String × α))
  | .object members => members.mapM fun m => (decode m.2).map fun a => (m.1, a)
  | _ => none

/-- A table, in which the last member of a name counts. -/
def table {α : Type} (decode : Decoder α) : Decoder (Table α) :=
  fun j => (pairs decode j).map Table.ofList

/-- Exactly two values. -/
def pair {α β : Type} (first : Decoder α) (second : Decoder β) : Decoder (α × β)
  | .array [a, b] => do return (← first a, ← second b)
  | _ => none

/-- The value of a field that may be missing, and `none` if the field is there more than once. -/
def field? (members : List (String × Json)) (name : String) : Option (Option Json) :=
  match members.filter (·.1 == name) with
  | [] => some none
  | [(_, j)] => some (some j)
  | _ => none

/-- Decode a field, with a value for one that is missing. -/
def optional {α : Type} (decode : Decoder α) (missing : α) : Option Json → Option α
  | none => some missing
  | some j => decode j

/-- A table of variables. -/
def vars : Decoder Vars := table value

end Decoder

/-- The value that a text holds. -/
def decodeText? {α : Type} (decode : Decoder α) (s : String) : Option α :=
  (read? s).bind decode

end Testbed.Json
