import Testbed.Inventory.Basic
import Testbed.Json.Decode

/-!
# Inventory files

An inventory file is an object.  Its member `_meta` holds the variables of hosts, and every other
member is a group.  A group and `_meta` are objects with known fields, each at most once, or arrays
with the values of those fields in order; fields may be missing, and unknown ones do not count.
-/

namespace Testbed.Inventory

/-- What an inventory file says. -/
structure File where
  groups : Table Group := ∅
  hostVars : Table Json.Vars := ∅

namespace File

open Json.Decoder (field? optional list string)

/-- A group from the values of its fields. -/
def groupOfFields (hosts children vars : Option Json) : Option Group := do
  let hosts ← optional (list string) [] hosts
  let children ← optional (list string) [] children
  let vars ← optional Json.Decoder.vars ∅ vars
  return { hosts, children, vars }

/-- A group. -/
def group : Json.Decoder Group
  | .object members => do
    groupOfFields (← field? members "hosts") (← field? members "children")
      (← field? members "vars")
  | .array items =>
    if items.length ≤ 3 then groupOfFields items[0]? items[1]? items[2]? else none
  | _ => none

/-- The variables of the hosts. -/
def hostTable : Json.Decoder (Table Json.Vars) := Json.Decoder.table Json.Decoder.vars

open Json (Reader)

/-- A value that is decoded as soon as it is read. -/
def decoded {α : Type} (decode : Json.Decoder α) (levels : Nat) : Reader α := fun cs =>
  match Reader.value .exact levels cs with
  | none => none
  | some (j, rest) => (decode j).map fun a => (a, rest)

/-- The member `hostvars` of `_meta`; every other member is skipped. -/
def metaMember (levels : Nat) (name : String) : Reader (Option (Table Json.Vars)) :=
  if name = "hostvars" then fun cs =>
    (decoded hostTable levels cs).map fun r => (some r.1, r.2)
  else fun cs => (Reader.skipped cs).map fun r => (none, r.2)

/-- The only table among those found; none is as good as an empty one. -/
def onlyTable : List (Table Json.Vars) → Option (Table Json.Vars)
  | [] => some ∅
  | [t] => some t
  | _ => none

/-- The value of `_meta`. -/
def metaValue (levels : Nat) : Reader (Table Json.Vars) := fun cs =>
  match levels, cs with
  | levels + 1, '\x7b' :: rest =>
    match Reader.members .exact (metaMember levels) rest with
    | none => none
    | some (found, rest) => (onlyTable (found.filterMap (·.2))).map fun t => (t, rest)
  | levels + 1, '[' :: rest =>
    match Reader.items (decoded hostTable levels) ']' rest with
    | none => none
    | some (found, rest) => (onlyTable found).map fun t => (t, rest)
  | _, _ => none

/-- A member of the file. -/
def member (levels : Nat) (name : String) : Reader (Table Json.Vars ⊕ Group) :=
  if name = "_meta" then fun cs => (metaValue levels cs).map fun r => (.inl r.1, r.2)
  else fun cs => (decoded group levels cs).map fun r => (.inr r.1, r.2)

/-- The whole file, with a limited number of nested arrays and objects. -/
def reader (levels : Nat) : Reader File := fun cs =>
  match levels, cs with
  | levels + 1, '\x7b' :: rest =>
    match Reader.members .exact (member levels) rest with
    | none => none
    | some (found, rest) =>
      let metas := found.filterMap fun entry => entry.2.getLeft?
      let groups := found.filterMap fun entry => entry.2.getRight?.map fun g => (entry.1, g)
      (onlyTable metas).map fun hostVars => ({ groups := Table.ofList groups, hostVars }, rest)
  | _, _ => none

/-- Read an inventory file. -/
def parse? (text : String) : Option File :=
  Reader.document (reader Reader.levelLimit) text

end File

end Testbed.Inventory
