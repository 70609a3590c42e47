import Testbed.Inventory.Hierarchy

/-!
# Visible variables

A host sees the variables of all groups it belongs to, from the outermost group inwards, and its own
variables over them.  Two names are reserved: `inventory_hostname` is the host, and `group_names`
its groups but for the two that contain every host.
-/

namespace Testbed.Inventory

/-- The groups that `group_names` leaves out. -/
def isUniversal (group : String) : Bool := group = "all" || group = "ungrouped"

/-- Whether the variables of one group come before those of another: at a smaller depth, or at the
same depth with a smaller name. -/
def outer (a b : Nat × String) : Bool := a.1 < b.1 || (a.1 = b.1 && a.2 ≤ b.2)

/-- The groups of a host with their depths, from the outermost inwards. -/
def layers (inv : Inventory) (host : String) : List (Nat × String) :=
  ((inv.hostGroups host).map fun name => (depth inv.groups name, name)).mergeSort outer

/-- The variables of a group. -/
def groupVars (inv : Inventory) (group : String) : Json.Vars :=
  match inv.groups.get? group with
  | some g => g.vars
  | none => ∅

/-- The variables that are visible to a host; nothing for an unknown host. -/
def visibleVars (inv : Inventory) (host : String) : Option Json.Vars :=
  (inv.hosts.get? host).map fun own =>
    let inherited : Json.Vars :=
      (inv.layers host).foldl (fun vars layer => vars.merge (inv.groupVars layer.2)) ∅
    let names := (inv.hostGroups host).filter fun group => !isUniversal group
    ((inherited.merge own).insert "inventory_hostname" (.string host)).insert "group_names"
      (Json.ofStrings names)

end Testbed.Inventory
