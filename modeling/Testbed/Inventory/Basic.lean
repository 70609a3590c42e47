import Testbed.FileTree.Basic
import Testbed.Json.Basic

/-!
# Inventories

An inventory lists hosts, each with variables of its own, and groups of hosts.  A group may have
other groups as children; its hosts then include theirs, and its variables are visible to them.
-/

namespace Testbed

/-- A group: the hosts it lists itself, its child groups, and its variables. -/
structure Inventory.Group where
  hosts : List String := []
  children : List String := []
  vars : Json.Vars := ∅
  deriving Inhabited

/-- Hosts with their own variables, groups, and the files they come from. -/
structure Inventory where
  sources : List Path := []
  hosts : Table Json.Vars := ∅
  groups : Table Inventory.Group := ∅

namespace Inventory

/-- Why an inventory cannot be loaded. -/
inductive LoadError where
  | unreadable (file : Path) (cause : FileError)
  | malformed (file : Path)
  deriving DecidableEq

/-- The wording of an error. -/
def LoadError.message : LoadError → String
  | unreadable _ _ => "failed to read inventory file"
  | malformed _ => "failed to parse inventory file"

/-- The variables that a host has itself. -/
def hostVars (inv : Inventory) (host : String) : Option Json.Vars := inv.hosts.get? host

end Inventory

end Testbed
