import Mathlib.Data.List.Infix
import Mathlib.Order.Bounds.Defs
import Testbed.Proofs.Inventory.Depth

/-!
# Walks up any graph of groups

The recursion that measures depths is told here with nothing that bounds its length: a call ends if
and only if there is a finite tree of calls below it.  On every graph of groups each call ends, in
one way only, and gives back the visited groups as they were.  From a group with none visited it
measures the longest walk up in which no group is left twice, so a parent that the group is not an
ancestor of is less deep, whatever cycles there are elsewhere.
-/

namespace Testbed.Inventory

open Relation (ReflTransGen TransGen)

variable {groups : Table Group}

/-! ## Calls that end -/

/-- What the recursion is asked for: the depth of a group, or the greatest of a number and of what
some parents give, each of them its depth and the step to it. -/
inductive Call where
  | depth (name : String)
  | through (best : Nat) (parents : List String)

/-- A call ends, with a number and the groups that are visited then, if the finitely many calls that
it makes end.  The visited groups are handed from each parent on to the next. -/
inductive Ends (groups : Table Group) : Call → List String → Nat → List String → Prop where
  | again {name : String} {visiting : List String} (old : name ∈ visiting) :
      Ends groups (.depth name) visiting 0 visiting
  | upwards {name : String} {visiting visiting' : List String} {depth : Nat}
      (new : name ∉ visiting)
      (above : Ends groups (.through 0 (parents groups name)) (name :: visiting) depth visiting') :
      Ends groups (.depth name) visiting depth (visiting'.erase name)
  | done {best : Nat} {visiting : List String} :
      Ends groups (.through best []) visiting best visiting
  | next {best depth result : Nat} {name : String}
      {rest visiting visiting' visiting'' : List String}
      (first : Ends groups (.depth name) visiting depth visiting')
      (others : Ends groups (.through (max best (depth + 1)) rest) visiting' result visiting'') :
      Ends groups (.through best (name :: rest)) visiting result visiting''

theorem Ends.restores {call : Call} {visiting visiting' : List String} {result : Nat}
    (h : Ends groups call visiting result visiting') : visiting' = visiting := by
  induction h with
  | again => rfl
  | upwards new above ih => rw [ih, List.erase_cons_head]
  | done => rfl
  | next first others ihfirst ihothers => rw [ihothers, ihfirst]

theorem Ends.unique {call : Call} {visiting visiting' other' : List String} {result other : Nat}
    (h : Ends groups call visiting result visiting')
    (h' : Ends groups call visiting other other') : other = result := by
  induction h generalizing other other' with
  | again old =>
      cases h' with
      | again => rfl
      | upwards new => exact absurd old new
  | upwards new above ih =>
      cases h' with
      | again old => exact absurd old new
      | upwards new' above' => exact ih above'
  | done =>
      cases h' with
      | done => rfl
  | next first others ihfirst ihothers =>
      cases h' with
      | next first' others' =>
          have hvisiting := first'.restores.trans first.restores.symm
          rw [ihfirst first', hvisiting] at others'
          exact ihothers others'

/-- The depths of some parents are taken one after the other, from the same visited groups. -/
theorem ends_through {fuel : Nat} {visiting names : List String}
    (ends : ∀ name ∈ names, Ends groups (.depth name) visiting
      (depthFrom groups fuel name visiting).1 (depthFrom groups fuel name visiting).2)
    (best : Nat) :
    let result := names.foldl
      (fun (best, visiting) name =>
        let (depth, visiting') := depthFrom groups fuel name visiting
        (max best (depth + 1), visiting'))
      (best, visiting)
    Ends groups (.through best names) visiting result.1 result.2 := by
  induction names generalizing best with
  | nil => exact Ends.done
  | cons first rest ih =>
      have hfirst := ends first List.mem_cons_self
      have hrest := ih (fun name hname => ends name (List.mem_cons_of_mem first hname))
        (max best ((depthFrom groups fuel first visiting).1 + 1))
      dsimp only at hrest ⊢
      rw [List.foldl_cons]
      dsimp only
      have hvisiting := hfirst.restores
      rw [hvisiting] at hfirst ⊢
      exact Ends.next hfirst hrest

/-- With enough fuel the recursion ends before the fuel does. -/
theorem ends_depthFrom {fuel : Nat} (name : String) {visiting : List String}
    (enough : unvisited groups visiting + 1 < fuel) :
    Ends groups (.depth name) visiting
      (depthFrom groups fuel name visiting).1 (depthFrom groups fuel name visiting).2 := by
  refine walk_induction
    (motive := fun fuel name visiting => Ends groups (.depth name) visiting
      (depthFrom groups fuel name visiting).1 (depthFrom groups fuel name visiting).2)
    ?_ name enough
  intro fuel name visiting hparents
  rw [depthFrom]
  by_cases hvisited : name ∈ visiting
  · rw [if_pos (by simpa using hvisited)]
    exact Ends.again hvisited
  · rw [if_neg (by simpa using hvisited)]
    exact Ends.upwards hvisited (ends_through (hparents hvisited) 0)

/-! ## Walks -/

/-- A group is a parent of its children. -/
def HasParent (groups : Table Group) (child parent : String) : Prop :=
  ∃ g, groups.get? parent = some g ∧ child ∈ g.children

/-- A walk up from a group, from each group to one of its parents, in which no group is left
twice: all groups on it are different but perhaps the last one. -/
structure Walk (groups : Table Group) (name : String) (up : List String) : Prop where
  linked : (name :: up).IsChain (HasParent groups)
  distinct : (name :: up).dropLast.Nodup

theorem climbs_iff {visiting up : List String} {name : String} :
    Climbs groups visiting name up ↔
      Walk groups name up ∧ ∀ other ∈ (name :: up).dropLast, other ∉ visiting := by
  induction up generalizing visiting name with
  | nil =>
      refine ⟨fun _ => ⟨⟨List.isChain_singleton name, List.nodup_nil⟩, ?_⟩, fun _ => trivial⟩
      exact fun _ hother => absurd hother List.not_mem_nil
  | cons parent up ih =>
      rw [Climbs, ih, mem_parents]
      constructor
      · rintro ⟨hname, hparent, ⟨hlinked, hdistinct⟩, hothers⟩
        have hnew : name ∉ (parent :: up).dropLast :=
          fun hmem => hothers name hmem List.mem_cons_self
        refine ⟨⟨List.isChain_cons_cons.mpr ⟨hparent, hlinked⟩, ?_⟩, ?_⟩
        · exact List.nodup_cons.mpr ⟨hnew, hdistinct⟩
        · intro other hother
          rcases List.mem_cons.mp hother with rfl | hother
          · exact hname
          · exact fun hvisited => hothers other hother (List.mem_cons_of_mem name hvisited)
      · rintro ⟨⟨hlinked, hdistinct⟩, hothers⟩
        obtain ⟨hparent, hlinked⟩ := List.isChain_cons_cons.mp hlinked
        obtain ⟨hnew, hdistinct⟩ := List.nodup_cons.mp hdistinct
        refine ⟨hothers name List.mem_cons_self, hparent, ⟨hlinked, hdistinct⟩, ?_⟩
        intro other hother hvisited
        rcases List.mem_cons.mp hvisited with rfl | hvisited
        · exact hnew hother
        · exact hothers other (List.mem_cons_of_mem name hother) hvisited

theorem climbs_nil_iff {up : List String} {name : String} :
    Climbs groups [] name up ↔ Walk groups name up := by
  simp [climbs_iff]

/-- A walk leads to ancestors only. -/
theorem ancestor_of_mem {name other : String} {up : List String}
    (linked : (name :: up).IsChain (HasParent groups)) (h : other ∈ name :: up) :
    ReflTransGen (HasParent groups) name other := by
  induction up generalizing name with
  | nil => rw [List.mem_singleton.mp h]
  | cons parent up ih =>
      obtain ⟨hparent, hlinked⟩ := List.isChain_cons_cons.mp linked
      rcases List.mem_cons.mp h with rfl | h
      · exact ReflTransGen.refl
      · exact ReflTransGen.head hparent (ih hlinked h)

/-- A walk up from a parent goes on from a group below it that it does not come through. -/
theorem Walk.cons {name parent : String} {up : List String} (h : Walk groups parent up)
    (hparent : HasParent groups name parent)
    (below : ¬TransGen (HasParent groups) parent name) : Walk groups name (parent :: up) := by
  refine ⟨List.isChain_cons_cons.mpr ⟨hparent, h.linked⟩, ?_⟩
  refine List.nodup_cons.mpr ⟨fun hmem => below ?_, h.distinct⟩
  rcases (ancestor_of_mem h.linked (List.mem_of_mem_dropLast hmem)).cases_head with heq | hhead
  · rw [heq] at hparent ⊢
    exact TransGen.single hparent
  · obtain ⟨above, hfirst, hrest⟩ := hhead
    exact TransGen.head' hfirst hrest

theorem isGreatest_depth (groups : Table Group) (name : String) :
    IsGreatest {steps | ∃ up, Walk groups name up ∧ up.length = steps} (depth groups name) := by
  have hmeasures := measures name (unvisited_lt_fuel groups)
  constructor
  · obtain ⟨up, hclimbs, hlength⟩ := hmeasures.attained
    exact ⟨up, climbs_nil_iff.mp hclimbs, hlength⟩
  · rintro steps ⟨up, hwalk, rfl⟩
    exact hmeasures.greatest up (climbs_nil_iff.mpr hwalk)

theorem depth_lt_of_hasParent {name parent : String} (hparent : HasParent groups name parent)
    (below : ¬TransGen (HasParent groups) parent name) :
    depth groups parent < depth groups name := by
  obtain ⟨up, hwalk, hlength⟩ := (isGreatest_depth groups parent).1
  have hle := (isGreatest_depth groups name).2 ⟨parent :: up, hwalk.cons hparent below, rfl⟩
  rw [List.length_cons, hlength] at hle
  exact hle

/-- Whatever groups have been visited, the recursion ends on every graph of groups, in one way, and
leaves them as they were; with none visited it measures a longest walk up.  A parent of a group is
less deep than the group unless the group is an ancestor of it. -/
theorem depth_measures_longest_walk (groups : Table Group) :
    (∀ name visiting, ∃ result,
      Ends groups (.depth name) visiting result visiting ∧
      (∀ other visiting', Ends groups (.depth name) visiting other visiting' →
        other = result ∧ visiting' = visiting) ∧
      ∀ fuel, unvisited groups visiting + 1 < fuel →
        depthFrom groups fuel name visiting = (result, visiting)) ∧
    (∀ name, Ends groups (.depth name) [] (depth groups name) [] ∧
      IsGreatest {steps | ∃ up, Walk groups name up ∧ up.length = steps} (depth groups name)) ∧
    ∀ name parent, HasParent groups name parent →
      ¬TransGen (HasParent groups) parent name → depth groups parent < depth groups name := by
  refine ⟨fun name visiting => ?_, fun name => ⟨?_, isGreatest_depth groups name⟩,
    fun name parent => depth_lt_of_hasParent⟩
  · have hends := ends_depthFrom name (Nat.lt_succ_self (unvisited groups visiting + 1))
    rw [hends.restores] at hends
    refine ⟨_, hends, fun other visiting' h => ⟨hends.unique h, h.restores⟩, fun fuel enough => ?_⟩
    have hfuel := ends_depthFrom name enough
    exact Prod.ext (hends.unique hfuel) hfuel.restores
  · have hends := ends_depthFrom name (unvisited_lt_fuel groups)
    rwa [hends.restores] at hends

/-- The groups above one rack form a cycle and one of them is its own parent; the rack is no
ancestor of its row, which is less deep. -/
theorem depth_measures_longest_walk_cycle :
    let groups : Table Group := Table.ofList [
      ("all", { children := ["all", "site"] }),
      ("site", { children := ["all", "row", "rack"] }),
      ("row", { children := ["rack"] }),
      ("rack", { hosts := ["h"] })]
    HasParent groups "rack" "row" ∧ ¬TransGen (HasParent groups) "row" "rack" ∧
      depth groups "row" < depth groups "rack" := by
  intro groups
  have hparent : HasParent groups "rack" "row" := mem_parents.mp (by decide +kernel)
  have hchildless : ∀ child, ¬HasParent groups child "rack" := by
    rintro child ⟨g, hg, hchild⟩
    have hrack : groups.get? "rack" = some { hosts := ["h"] } := rfl
    rw [hrack] at hg
    cases hg
    exact absurd hchild List.not_mem_nil
  have hbelow : ¬TransGen (HasParent groups) "row" "rack" := by
    intro h
    obtain ⟨child, -, hlast⟩ := TransGen.tail'_iff.mp h
    exact hchildless child hlast
  exact ⟨hparent, hbelow, (depth_measures_longest_walk groups).2.2 "rack" "row" hparent hbelow⟩

end Testbed.Inventory
