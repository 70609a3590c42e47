import Testbed.Inventory.Load

/-!
# The hierarchy of groups

The links from groups to their children may form any graph, with cycles and with children that are
no groups.  `hostGroups` goes up from the groups that list a host, `groupHosts` goes down from a
group, and `depth` measures how far a group is from the top of the hierarchy.  Both walks are
worklists over the groups visited so far; they end because each step visits one more group or
shortens the list of those that are pending.
-/

namespace Testbed.Inventory

/-- The groups that have a group as their child. -/
def parents (groups : Table Group) (name : String) : List String :=
  (groups.filter fun _ parent => parent.children.contains name).names

/-- The groups that list a host themselves. -/
def directGroups (groups : Table Group) (host : String) : List String :=
  (groups.filter fun _ group => group.hosts.contains host).names

/-- How many groups have not been visited. -/
def unvisited (groups : Table Group) (visited : List String) : Nat :=
  groups.names.countP fun name => !visited.contains name

/-- A narrower test that fails for a member that passes the wider one counts fewer members. -/
theorem countP_lt_of_mem {l : List String} {narrow wide : String → Bool} {name : String}
    (le : ∀ x ∈ l, narrow x = true → wide x = true) (member : name ∈ l)
    (passes : wide name = true) (fails : narrow name = false) :
    l.countP narrow < l.countP wide := by
  induction l with
  | nil => simp at member
  | cons x rest ih =>
    have tail : rest.countP narrow ≤ rest.countP wide :=
      List.countP_mono_left fun y hy => le y (List.mem_cons_of_mem x hy)
    have head : narrow x = true → wide x = true := le x List.mem_cons_self
    rcases List.mem_cons.1 member with rfl | member
    · rw [List.countP_cons_of_pos passes, List.countP_cons_of_neg (by simp [fails])]
      omega
    · have := ih (fun y hy => le y (List.mem_cons_of_mem x hy)) member
      rw [List.countP_cons, List.countP_cons]
      grind

theorem not_contains_of_cons {visited : List String} {name x : String}
    (h : (!(name :: visited).contains x) = true) : (!visited.contains x) = true := by
  simp only [List.contains_cons, Bool.not_or, Bool.and_eq_true] at h
  exact h.2

theorem unvisited_cons_le (groups : Table Group) (visited : List String) (name : String) :
    unvisited groups (name :: visited) ≤ unvisited groups visited :=
  List.countP_mono_left fun _ _ => not_contains_of_cons

theorem unvisited_cons_lt {groups : Table Group} {visited : List String} {name : String}
    (defined : groups.contains name = true) (new : visited.contains name = false) :
    unvisited groups (name :: visited) < unvisited groups visited := by
  have member : name ∈ groups.names := by
    simp only [Table.contains, List.any_eq_true, beq_iff_eq] at defined
    obtain ⟨entry, hentry, rfl⟩ := defined
    exact List.mem_map_of_mem hentry
  exact countP_lt_of_mem (fun _ _ => not_contains_of_cons) member (by rw [new]; rfl) (by simp)

/-- Visit the pending groups and all their ancestors. -/
def climb (groups : Table Group) (pending visited : List String) : List String :=
  match pending with
  | [] => visited
  | name :: rest =>
    if _ : groups.contains name = true ∧ visited.contains name = false then
      climb groups (parents groups name ++ rest) (name :: visited)
    else climb groups rest visited
termination_by (unvisited groups visited, pending.length)
decreasing_by
  · rename_i new
    exact Prod.Lex.left _ _ (unvisited_cons_lt new.1 new.2)
  · exact Prod.Lex.right _ (by simp)

/-- The groups that a host belongs to, directly or through their descendants, in ascending order. -/
def hostGroups (inv : Inventory) (host : String) : List String :=
  let visited := climb inv.groups (directGroups inv.groups host) []
  inv.groups.names.filter visited.contains

/-- Visit the pending groups and their descendants in the order of a stack: the hosts of a group
come first, then those of its children.  A name that is no group is visited, and leads nowhere. -/
def gather (groups : Table Group) (pending visited hosts : List String) : List String :=
  match pending with
  | [] => hosts
  | name :: rest =>
    if _ : visited.contains name = false then
      match _ : groups.get? name with
      | some group =>
        gather groups (group.children ++ rest) (name :: visited) (appendNew hosts group.hosts)
      | none => gather groups rest (name :: visited) hosts
    else gather groups rest visited hosts
termination_by (unvisited groups visited, pending.length)
decreasing_by
  · rename_i new defined
    refine Prod.Lex.left _ _ (unvisited_cons_lt ?_ new)
    simp only [Table.get?, Option.map_eq_some_iff] at defined
    obtain ⟨entry, hentry, _⟩ := defined
    simp only [Table.contains, List.any_eq_true]
    have named := List.find?_some hentry
    exact ⟨entry, List.mem_of_find?_eq_some hentry, by simpa using named⟩
  · rcases Nat.lt_or_eq_of_le (unvisited_cons_le groups visited name) with h | h
    · exact Prod.Lex.left _ _ h
    · rw [h]
      exact Prod.Lex.right _ (by simp)
  · exact Prod.Lex.right _ (by simp)

/-- The hosts of a group, including those of its descendants; nothing for what is no group. -/
def groupHosts (inv : Inventory) (group : String) : Option (List String) :=
  if inv.groups.contains group then some (gather inv.groups [group] [] []) else none

/-- The depth of a group, on a walk up that has come through the groups of `visiting`: one of those
counts as a top.  The set of visited groups is handed on, and given back.  A walk visits each group
once, so `fuel` need not exceed their number by more than two. -/
def depthFrom (groups : Table Group) : Nat → String → List String → Nat × List String
  | 0, _, visiting => (0, visiting)
  | fuel + 1, name, visiting =>
    if visiting.contains name then (0, visiting)
    else
      let (depth, visiting') := (parents groups name).foldl
        (fun (best, visiting) parent =>
          let (depth, visiting') := depthFrom groups fuel parent visiting
          (max best (depth + 1), visiting'))
        (0, name :: visiting)
      (depth, visiting'.erase name)

/-- The distance of a group from the top of the hierarchy, along its longest chain of ancestors. -/
def depth (groups : Table Group) (name : String) : Nat :=
  (depthFrom groups (groups.entries.length + 2) name []).1

end Testbed.Inventory
