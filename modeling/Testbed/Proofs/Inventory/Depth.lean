import Mathlib.Data.List.Chain
import Testbed.Proofs.Inventory.Links

/-!
# Depths of groups

The depth of a group is the length of a longest walk up from it, in which no group is left twice.
The groups on the way are handed down the recursion and given back, so the walks from several
parents do not disturb one another.  In a hierarchy without cycles every chain of ancestors is such
a walk; then the depth is the length of the longest chain, and grows along every link.
-/

namespace Testbed.Inventory

open Relation (TransGen)

variable {groups : Table Group}

/-- A walk up from a group, along its ancestors.  It leaves no group that has been visited, and
visits each group that it leaves. -/
def Climbs (groups : Table Group) : List String → String → List String → Prop
  | _, _, [] => True
  | visiting, name, parent :: up =>
    name ∉ visiting ∧ parent ∈ parents groups name ∧ Climbs groups (name :: visiting) parent up

/-- What the depths of some parents come to, if each of them gives back the visited groups. -/
theorem foldl_depthFrom {fuel : Nat} {visiting : List String} {names : List String}
    (restores : ∀ name ∈ names, (depthFrom groups fuel name visiting).2 = visiting) (best : Nat) :
    let result := names.foldl
      (fun (best, visiting) name =>
        let (depth, visiting') := depthFrom groups fuel name visiting
        (max best (depth + 1), visiting'))
      (best, visiting)
    result.2 = visiting ∧ best ≤ result.1 ∧
      (∀ name ∈ names, (depthFrom groups fuel name visiting).1 + 1 ≤ result.1) ∧
      (result.1 = best ∨
        ∃ name ∈ names, result.1 = (depthFrom groups fuel name visiting).1 + 1) := by
  induction names generalizing best with
  | nil => simp
  | cons first rest ih =>
      have hfirst := restores first List.mem_cons_self
      have hrest := ih (fun name hname => restores name (List.mem_cons_of_mem first hname))
        (max best ((depthFrom groups fuel first visiting).1 + 1))
      dsimp only at hrest ⊢
      rw [List.foldl_cons]
      dsimp only
      rw [hfirst]
      obtain ⟨hvisiting, hbest, hothers, hattained⟩ := hrest
      refine ⟨hvisiting, by omega, ?_, ?_⟩
      · intro name hname
        rcases List.mem_cons.mp hname with rfl | hname
        · omega
        · exact hothers name hname
      · rcases hattained with hmax | ⟨name, hname, heq⟩
        · rcases Nat.le_total best ((depthFrom groups fuel first visiting).1 + 1) with hle | hle
          · exact Or.inr ⟨first, List.mem_cons_self, by rw [hmax]; omega⟩
          · exact Or.inl (by rw [hmax]; omega)
        · exact Or.inr ⟨name, List.mem_cons_of_mem first hname, heq⟩

/-- With fuel for all groups that have not been visited, and one unit more for a name that is no
group, a walk ends before the fuel does: what holds of a group once it holds of its parents, or if
it has been visited, holds of every name. -/
theorem walk_induction {motive : Nat → String → List String → Prop}
    (step : ∀ fuel name visiting,
      (name ∉ visiting →
        ∀ parent ∈ parents groups name, motive fuel parent (name :: visiting)) →
      motive (fuel + 1) name visiting)
    {fuel : Nat} (name : String) {visiting : List String}
    (enough : unvisited groups visiting + 1 < fuel) : motive fuel name visiting := by
  have hgroups : ∀ fuel name visiting, groups.contains name = true →
      unvisited groups visiting < fuel → motive fuel name visiting := by
    intro fuel
    induction fuel with
    | zero => exact fun _ _ _ hless => absurd hless (Nat.not_lt_zero _)
    | succ fuel ih =>
        intro name visiting defined hless
        apply step
        intro hvisited parent hparent
        have hfewer := unvisited_cons_lt defined (by simpa using hvisited)
        exact ih parent (name :: visiting) (contains_of_mem_parents hparent) (by omega)
  cases fuel with
  | zero => exact absurd enough (Nat.not_lt_zero _)
  | succ fuel =>
      apply step
      intro _ parent hparent
      have hle := unvisited_cons_le groups visiting name
      exact hgroups fuel parent (name :: visiting) (contains_of_mem_parents hparent) (by omega)

/-- The recursion gives back the visited groups and measures a longest walk. -/
structure Measures (groups : Table Group) (fuel : Nat) (name : String) (visiting : List String) :
    Prop where
  restores : (depthFrom groups fuel name visiting).2 = visiting
  attained : ∃ up, Climbs groups visiting name up ∧
    up.length = (depthFrom groups fuel name visiting).1
  greatest : ∀ up, Climbs groups visiting name up →
    up.length ≤ (depthFrom groups fuel name visiting).1

theorem measures_step {fuel : Nat} {name : String} {visiting : List String}
    (above : name ∉ visiting →
      ∀ parent ∈ parents groups name, Measures groups fuel parent (name :: visiting)) :
    Measures groups (fuel + 1) name visiting := by
  by_cases hvisited : name ∈ visiting
  · have hstop : depthFrom groups (fuel + 1) name visiting = (0, visiting) := by
      rw [depthFrom, if_pos (by simpa using hvisited)]
    refine ⟨by rw [hstop], ⟨[], trivial, by rw [hstop]; rfl⟩, fun up hup => ?_⟩
    cases up with
    | nil => exact Nat.zero_le _
    | cons parent up => exact absurd hvisited hup.1
  · have hparents := above hvisited
    have hfold := foldl_depthFrom (fun parent hparent => (hparents parent hparent).restores) 0
    dsimp only at hfold
    obtain ⟨hvisiting, -, hothers, hattained⟩ := hfold
    constructor
    all_goals
      rw [depthFrom, if_neg (by simpa using hvisited)]
      dsimp only
    · rw [hvisiting, List.erase_cons_head]
    · rcases hattained with hzero | ⟨parent, hparent, heq⟩
      · exact ⟨[], trivial, hzero.symm⟩
      · obtain ⟨up, hclimbs, hlength⟩ := (hparents parent hparent).attained
        exact ⟨parent :: up, ⟨hvisited, hparent, hclimbs⟩, by
          rw [List.length_cons, hlength, heq]⟩
    · intro up hup
      cases up with
      | nil => exact Nat.zero_le _
      | cons parent up =>
          obtain ⟨-, hparent, hclimbs⟩ := hup
          have hle := (hparents parent hparent).greatest up hclimbs
          have hother := hothers parent hparent
          rw [List.length_cons]
          omega

theorem measures {fuel : Nat} (name : String) {visiting : List String}
    (enough : unvisited groups visiting + 1 < fuel) : Measures groups fuel name visiting :=
  walk_induction (motive := Measures groups) (fun _ _ _ => measures_step) name enough

/-- The depth is measured with enough fuel. -/
theorem unvisited_lt_fuel (groups : Table Group) :
    unvisited groups [] + 1 < groups.entries.length + 2 := by
  have hle : unvisited groups [] ≤ groups.names.length := List.countP_le_length
  have hlength : groups.names.length = groups.entries.length := by simp [Table.names]
  omega

/-! ## Hierarchies without cycles -/

/-- No chain of links leads from a group back to itself. -/
def Acyclic (groups : Table Group) : Prop :=
  ∀ name, ¬TransGen (Link groups) name name

/-- A chain of ancestors of a group, from a parent upwards. -/
def Ancestry (groups : Table Group) (name : String) (up : List String) : Prop :=
  (name :: up).IsChain fun child parent => Link groups parent child

/-- The longest chains of ancestors of a group have a number of members. -/
structure LongestAncestry (groups : Table Group) (name : String) (length : Nat) : Prop where
  attained : ∃ up, Ancestry groups name up ∧ up.length = length
  greatest : ∀ up, Ancestry groups name up → up.length ≤ length

theorem ancestry_cons {name parent : String} {up : List String} :
    Ancestry groups name (parent :: up) ↔ Link groups parent name ∧ Ancestry groups parent up :=
  List.isChain_cons_cons

theorem ancestry_of_climbs {name : String} {up visiting : List String}
    (defined : groups.contains name = true) (h : Climbs groups visiting name up) :
    Ancestry groups name up := by
  induction up generalizing name visiting with
  | nil => exact List.isChain_singleton name
  | cons parent up ih =>
      obtain ⟨-, hparent, hclimbs⟩ := h
      have hrest := ih (contains_of_mem_parents hparent) hclimbs
      exact ancestry_cons.mpr ⟨link_of_mem_parents defined hparent, hrest⟩

/-- What has been visited lies below, so without cycles no ancestor has been visited. -/
theorem Acyclic.climbs (acyclic : Acyclic groups) {name : String} {up visiting : List String}
    (below : ∀ other ∈ visiting, TransGen (Link groups) name other)
    (h : Ancestry groups name up) : Climbs groups visiting name up := by
  induction up generalizing name visiting with
  | nil => trivial
  | cons parent up ih =>
      obtain ⟨hlink, hrest⟩ := ancestry_cons.mp h
      refine ⟨fun hvisited => acyclic name (below name hvisited), mem_parents_of_link hlink, ?_⟩
      apply ih _ hrest
      intro other hother
      rcases List.mem_cons.mp hother with rfl | hother
      · exact TransGen.single hlink
      · exact TransGen.head hlink (below other hother)

/-- Without cycles the depth of a group is the length of its longest chain of ancestors. -/
theorem Acyclic.longestAncestry (acyclic : Acyclic groups) {name : String}
    (defined : groups.contains name = true) :
    LongestAncestry groups name (depth groups name) := by
  obtain ⟨-, ⟨up, hclimbs, hlength⟩, hgreatest⟩ := measures name (unvisited_lt_fuel groups)
  constructor
  · exact ⟨up, ancestry_of_climbs defined hclimbs, hlength⟩
  · intro up hup
    exact hgreatest up (acyclic.climbs (by simp) hup)

theorem LongestAncestry.unique {name : String} {m n : Nat} (hm : LongestAncestry groups name m)
    (hn : LongestAncestry groups name n) : m = n := by
  obtain ⟨up, hup, rfl⟩ := hm.attained
  obtain ⟨up', hup', rfl⟩ := hn.attained
  exact Nat.le_antisymm (hn.greatest up hup) (hm.greatest up' hup')

theorem Acyclic.depth_lt_of_link (acyclic : Acyclic groups) {parent child : String}
    (h : Link groups parent child) : depth groups parent < depth groups child := by
  have hparent := contains_of_mem_parents (mem_parents_of_link h)
  obtain ⟨up, hup, hlength⟩ := (acyclic.longestAncestry hparent).attained
  have hchild : Ancestry groups child (parent :: up) := ancestry_cons.mpr ⟨h, hup⟩
  have hle := (acyclic.longestAncestry h.1).greatest _ hchild
  rw [List.length_cons] at hle
  omega

/-- Without cycles an ancestor is less deep, however many chains lead to it. -/
theorem Acyclic.depth_lt (acyclic : Acyclic groups) {ancestor name : String}
    (h : TransGen (Link groups) ancestor name) : depth groups ancestor < depth groups name := by
  induction h with
  | single hlink => exact acyclic.depth_lt_of_link hlink
  | tail _ hlink ih => exact Nat.lt_trans ih (acyclic.depth_lt_of_link hlink)

/-- There are no cycles if and only if the depth grows along every link. -/
theorem acyclic_iff : Acyclic groups ↔
    ∀ entry ∈ groups.entries, ∀ child ∈ entry.2.children, groups.contains child = true →
      depth groups entry.1 < depth groups child := by
  constructor
  · intro acyclic entry hentry child hchild defined
    exact acyclic.depth_lt_of_link ⟨defined, entry.2, Table.mem_entries.mp hentry, hchild⟩
  · intro grows
    have hlink : ∀ parent child, Link groups parent child →
        depth groups parent < depth groups child := by
      rintro parent child ⟨defined, g, hg, hchild⟩
      exact grows (parent, g) (Table.mem_entries.mpr hg) child hchild defined
    have hchain : ∀ ancestor name, TransGen (Link groups) ancestor name →
        depth groups ancestor < depth groups name := by
      intro ancestor name h
      induction h with
      | single h => exact hlink _ _ h
      | tail _ h ih => exact Nat.lt_trans ih (hlink _ _ h)
    intro name hcycle
    exact Nat.lt_irrefl _ (hchain name name hcycle)

instance : DecidablePred Acyclic := fun _ => decidable_of_iff _ acyclic_iff.symm

end Testbed.Inventory
