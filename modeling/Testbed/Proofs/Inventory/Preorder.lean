import Testbed.Proofs.Inventory.Links
import Testbed.Proofs.Inventory.Merge

/-!
# The order of a group's hosts

The hosts of a group come in the order of a recursive walk down: a group that is entered for the
first time gives its own hosts, and then its children are entered in their order.  The loop over a
stack that lists them marks a group when it is taken off the stack, so a name may be on the stack
several times, and what is on the stack when a group is left is the walk through its later siblings
and those of its ancestors.
-/

namespace Testbed.Inventory

variable {groups : Table Group}

theorem unvisited_le_of_subset {visited visited' : List String} (h : visited ⊆ visited') :
    unvisited groups visited' ≤ unvisited groups visited := by
  apply List.countP_mono_left
  intro name _ hname
  simp only [Bool.not_eq_true', List.contains_eq_mem, decide_eq_false_iff_not] at hname ⊢
  exact fun hmem => hname (h hmem)

/-! ## The recursive walk -/

/-- What a walk leaves behind: the groups that have been entered, and the hosts in the order in
which it has come upon them, as often as it has. -/
structure Tour where
  entered : List String
  hosts : List String

/-- Enter groups one after the other.  A group that has not been entered gives its own hosts, and
then its children are entered; any other name gives nothing. -/
def tour (groups : Table Group) (names entered : List String) :
    { result : Tour // entered ⊆ result.entered } :=
  match names with
  | [] => ⟨⟨entered, []⟩, List.Subset.refl entered⟩
  | name :: rest =>
    if _ : entered.contains name = false then
      match _ : groups.get? name with
      | none => tour groups rest entered
      | some g =>
        let below := tour groups g.children (name :: entered)
        let beside := tour groups rest below.1.entered
        ⟨⟨beside.1.entered, g.hosts ++ below.1.hosts ++ beside.1.hosts⟩, fun _ h =>
          beside.2 (below.2 (List.mem_cons_of_mem name h))⟩
    else tour groups rest entered
termination_by (unvisited groups entered, names.length)
decreasing_by
  · exact Prod.Lex.right _ (by simp)
  · rename_i new defined
    exact Prod.Lex.left _ _ (unvisited_cons_lt (Table.contains_iff.mpr ⟨g, defined⟩) new)
  · rename_i new defined
    have fewer := unvisited_cons_lt (Table.contains_iff.mpr ⟨g, defined⟩) new
    exact Prod.Lex.left _ _ (Nat.lt_of_le_of_lt (unvisited_le_of_subset below.2) fewer)
  · exact Prod.Lex.right _ (by simp)

section Tour

variable {rest entered : List String} {name : String}

theorem tour_nil (entered : List String) : (tour groups [] entered).1 = ⟨entered, []⟩ := by
  rw [tour]

theorem tour_entered (old : entered.contains name = true) :
    tour groups (name :: rest) entered = tour groups rest entered := by
  rw [tour, dif_neg (by simpa using old)]

theorem tour_undefined (hnone : groups.get? name = none) :
    tour groups (name :: rest) entered = tour groups rest entered := by
  rw [tour]
  split
  case isFalse => rfl
  case isTrue =>
      split
      case h_1 => rfl
      case h_2 g hg => cases hg.symm.trans hnone

theorem tour_group {g : Group} (hg : groups.get? name = some g)
    (new : entered.contains name = false) :
    (tour groups (name :: rest) entered).1 =
      let below := (tour groups g.children (name :: entered)).1
      let beside := (tour groups rest below.entered).1
      ⟨beside.entered, g.hosts ++ below.hosts ++ beside.hosts⟩ := by
  rw [tour, dif_pos new]
  split
  case h_1 hnone => cases hg.symm.trans hnone
  case h_2 g' hg' =>
      cases hg.symm.trans hg'
      rfl

end Tour

/-! ## The loop over the stack -/

section Gather

variable {visited visited' hosts rest : List String} {name : String}

theorem gather_visited (old : visited.contains name = true) :
    gather groups (name :: rest) visited hosts = gather groups rest visited hosts := by
  rw [gather, dif_neg (by simpa using old)]

theorem gather_group {g : Group} (hg : groups.get? name = some g)
    (new : visited.contains name = false) :
    gather groups (name :: rest) visited hosts =
      gather groups (g.children ++ rest) (name :: visited) (appendNew hosts g.hosts) := by
  rw [gather, dif_pos new]
  split
  case h_1 g' hg' =>
      cases hg.symm.trans hg'
      rfl
  case h_2 hnone => cases hg.symm.trans hnone

/-- The same groups have been visited. -/
def SameGroups (groups : Table Group) (visited visited' : List String) : Prop :=
  ∀ name, groups.contains name = true → (name ∈ visited ↔ name ∈ visited')

theorem SameGroups.cons (h : SameGroups groups visited visited') (name : String) :
    SameGroups groups (name :: visited) (name :: visited') := by
  intro other hother
  rw [List.mem_cons, List.mem_cons, h other hother]

theorem ne_of_undefined (hnone : groups.get? name = none) {other : String}
    (hother : groups.contains other = true) : other ≠ name := by
  rintro rfl
  obtain ⟨g, hg⟩ := Table.contains_iff.mp hother
  cases hg.symm.trans hnone

theorem sameGroups_cons_of_undefined (hnone : groups.get? name = none) (visited : List String) :
    SameGroups groups (name :: visited) visited := by
  intro other hother
  simp [ne_of_undefined hnone hother]

/-- A name that is no group leaves the visited groups and the hosts as they are. -/
theorem exists_gather_of_undefined (hnone : groups.get? name = none)
    (rest visited hosts : List String) :
    ∃ visited', SameGroups groups visited' visited ∧
      gather groups (name :: rest) visited hosts = gather groups rest visited' hosts := by
  by_cases old : visited.contains name = true
  · exact ⟨visited, fun _ _ => Iff.rfl, gather_visited old⟩
  · refine ⟨name :: visited, sameGroups_cons_of_undefined hnone visited, ?_⟩
    rw [gather, dif_pos (by simpa using old)]
    split
    case h_1 g hg => cases hg.symm.trans hnone
    case h_2 => rfl

/-- Only groups count among the visited names. -/
theorem gather_congr {pending : List String} (same : SameGroups groups visited visited') :
    gather groups pending visited hosts = gather groups pending visited' hosts := by
  fun_induction gather groups pending visited hosts generalizing visited' with
  | case1 => rw [gather]
  | case2 visited hosts name rest new g hg ih =>
      have hname : visited'.contains name = false := by
        have hiff := same name (Table.contains_iff.mpr ⟨g, hg⟩)
        simpa [hiff] using new
      rw [gather_group hg hname]
      exact ih (same.cons name)
  | case3 visited hosts name rest new hnone ih =>
      obtain ⟨visited'', same', heq⟩ := exists_gather_of_undefined hnone rest visited' hosts
      rw [heq]
      apply ih
      intro other hother
      rw [sameGroups_cons_of_undefined hnone visited other hother, same other hother,
        same' other hother]
  | case4 visited hosts name rest old ih =>
      rcases hg : groups.get? name with - | g
      · obtain ⟨visited'', same', heq⟩ := exists_gather_of_undefined hg rest visited' hosts
        rw [heq]
        apply ih
        intro other hother
        rw [same other hother, same' other hother]
      · have hiff := same name (Table.contains_iff.mpr ⟨g, hg⟩)
        rw [gather_visited (by simpa [hiff] using old)]
        exact ih same

/-- A name that is no group is passed over. -/
theorem gather_undefined (hnone : groups.get? name = none) :
    gather groups (name :: rest) visited hosts = gather groups rest visited hosts := by
  obtain ⟨visited', same, heq⟩ := exists_gather_of_undefined hnone rest visited hosts
  rw [heq]
  exact gather_congr same

end Gather

theorem appendNew_append (names new more : List String) :
    appendNew names (new ++ more) = appendNew (appendNew names new) more := by
  rw [appendNew, appendNew, appendNew, List.foldl_append]

/-- What is on top of the stack is walked through before the rest, in the order of the recursion. -/
theorem gather_append (names rest entered hosts : List String) :
    gather groups (names ++ rest) entered hosts =
      gather groups rest (tour groups names entered).1.entered
        (appendNew hosts (tour groups names entered).1.hosts) := by
  fun_induction tour groups names entered generalizing rest hosts with
  | case1 entered => rfl
  | case2 entered name others new hnone ih =>
      rw [List.cons_append, gather_undefined hnone, ih]
  | case3 entered name others new g hg below beside ihBelow ihBeside =>
      rw [List.cons_append, gather_group hg new, ihBelow, ihBeside, appendNew_append,
        appendNew_append]
  | case4 entered name others old ih =>
      rw [List.cons_append, gather_visited (by simpa using old), ih]

/-- The hosts of a group are those that the recursive walk from it comes upon, in that order and
each at its first place, however the groups are linked. -/
theorem groupHosts_preorder (inv : Inventory) {group : String}
    (defined : inv.groups.contains group = true) :
    inv.groupHosts group = some (tour inv.groups [group] []).1.hosts.eraseDups := by
  have hwalk : gather inv.groups ([group] ++ []) [] [] = _ := gather_append [group] [] [] []
  rw [List.append_nil] at hwalk
  rw [groupHosts, if_pos defined, hwalk, gather]
  exact congrArg some (appendNew_eraseDups [] _)

/-- Two ways lead to one group, two groups are on cycles, and one child is no group. -/
theorem groupHosts_preorder_shared :
    let inv : Inventory := { groups := Table.ofList [
      ("top", { hosts := ["a"], children := ["left", "ghost", "right"] }),
      ("left", { hosts := ["b", "a"], children := ["shared", "top"] }),
      ("right", { hosts := ["c"], children := ["shared", "right"] }),
      ("shared", { hosts := ["d", "b"] })] }
    inv.groups.contains "top" = true ∧ inv.groupHosts "top" = some ["a", "b", "d", "c"] := by
  intro inv
  have defined : inv.groups.contains "top" = true := by decide
  have top : inv.groups.get? "top" = some ⟨["a"], ["left", "ghost", "right"], {}⟩ := rfl
  have left : inv.groups.get? "left" = some ⟨["b", "a"], ["shared", "top"], {}⟩ := rfl
  have right : inv.groups.get? "right" = some ⟨["c"], ["shared", "right"], {}⟩ := rfl
  have shared : inv.groups.get? "shared" = some ⟨["d", "b"], [], {}⟩ := rfl
  have ghost : inv.groups.get? "ghost" = none := rfl
  have hwalk : (tour inv.groups ["top"] []).1.hosts = ["a", "b", "a", "d", "b", "c"] := by
    simp [tour_nil, tour_entered, tour_undefined, tour_group, top, left, right, shared, ghost]
  refine ⟨defined, ?_⟩
  rw [groupHosts_preorder inv defined, hwalk]
  decide

end Testbed.Inventory
