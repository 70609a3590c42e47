import Testbed.FileTree.Access
import Testbed.Inventory.File

/-!
# Loading inventories

Files are merged in order.  What several files say of one group is joined: its hosts and children in
the order in which they first occur, and its variables so that the later file decides.  The
variables of a host are joined in the same way.  A host is known if a group lists it or a file has
variables for it.
-/

namespace Testbed.Inventory

/-- Append those of the new names that are not in the list yet, each once. -/
def appendNew (names new : List String) : List String :=
  new.foldl (fun names name => if names.contains name then names else names ++ [name]) names

/-- A group with what another file says of it. -/
def Group.merge (g later : Group) : Group where
  hosts := appendNew g.hosts later.hosts
  children := appendNew g.children later.children
  vars := g.vars.merge later.vars

/-- Make hosts known, without touching the variables of those that are. -/
def register (hosts : Table Json.Vars) (names : List String) : Table Json.Vars :=
  names.foldl (fun hosts name => hosts.alter name ∅ id) hosts

/-- Merge a group into an inventory. -/
def mergeGroup (inv : Inventory) (name : String) (g : Group) : Inventory :=
  { inv with
    hosts := register inv.hosts g.hosts
    groups := inv.groups.alter name {} (·.merge g) }

/-- Merge the variables of a host into an inventory. -/
def mergeHost (inv : Inventory) (name : String) (vars : Json.Vars) : Inventory :=
  { inv with hosts := inv.hosts.alter name ∅ (·.merge vars) }

/-- Merge a file into an inventory: its groups first, then the variables of its hosts. -/
def mergeFile (inv : Inventory) (file : File) : Inventory :=
  let grouped := file.groups.entries.foldl (fun inv entry => mergeGroup inv entry.1 entry.2) inv
  file.hostVars.entries.foldl (fun inv entry => mergeHost inv entry.1 entry.2) grouped

/-- Read a file of a file tree. -/
def readFile (t : FileTree) (path : Path) : Except LoadError File :=
  match t.readText path with
  | .error cause => .error (.unreadable path cause)
  | .ok text =>
    match File.parse? text with
    | some file => .ok file
    | none => .error (.malformed path)

/-- Merge one more file of a file tree into an inventory. -/
def addFile (t : FileTree) (inv : Inventory) (path : Path) : Except LoadError Inventory :=
  (readFile t path).map fun file =>
    let merged := inv.mergeFile file
    { merged with sources := merged.sources ++ [path] }

/-- Load files into an inventory, up to the first that cannot be loaded. -/
def loadFrom (t : FileTree) (inv : Inventory) : List Path → Except LoadError Inventory
  | [] => .ok inv
  | path :: rest =>
    match addFile t inv path with
    | .ok inv' => loadFrom t inv' rest
    | .error e => .error e

/-- Load an inventory. -/
def load (t : FileTree) (paths : List Path) : Except LoadError Inventory :=
  loadFrom t {} paths

end Testbed.Inventory
