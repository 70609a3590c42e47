import Mathlib.Logic.Relation
import Testbed.Inventory.Hierarchy
import Testbed.Proofs.Table

/-!
# Links between groups

A group is linked to each of its children that is a group itself.  It includes a host if a chain of
links leads from it to a group that lists the host.  Both walks through the hierarchy are proved to
follow all of these chains and no others: the groups that `climb` visits are closed under parents,
and those that `gather` visits are closed under children once nothing is pending.
-/

namespace Testbed.Inventory

open Relation (ReflTransGen)

/-- A group has another group, or itself, as a child. -/
def Link (groups : Table Group) (parent child : String) : Prop :=
  groups.contains child = true ∧ ∃ g, groups.get? parent = some g ∧ child ∈ g.children

/-- A group lists a host itself. -/
def Lists (groups : Table Group) (group host : String) : Prop :=
  ∃ g, groups.get? group = some g ∧ host ∈ g.hosts

/-- A chain of links leads from a group to one that lists a host. -/
def Includes (groups : Table Group) (group host : String) : Prop :=
  ∃ last, ReflTransGen (Link groups) group last ∧ Lists groups last host

variable {groups : Table Group} {pending visited hosts : List String}

theorem mem_parents {parent child : String} :
    parent ∈ parents groups child ↔ ∃ g, groups.get? parent = some g ∧ child ∈ g.children := by
  simp [parents, Table.mem_names_filter]

theorem mem_parents_of_link {parent child : String} (h : Link groups parent child) :
    parent ∈ parents groups child :=
  mem_parents.mpr h.2

theorem link_of_mem_parents {parent child : String} (defined : groups.contains child = true)
    (h : parent ∈ parents groups child) : Link groups parent child :=
  ⟨defined, mem_parents.mp h⟩

theorem contains_of_mem_parents {parent child : String} (h : parent ∈ parents groups child) :
    groups.contains parent = true := by
  obtain ⟨g, hg, -⟩ := mem_parents.mp h
  exact Table.contains_iff.mpr ⟨g, hg⟩

theorem mem_directGroups {group host : String} :
    group ∈ directGroups groups host ↔ Lists groups group host := by
  simp [directGroups, Table.mem_names_filter, Lists]

theorem contains_of_includes {group host : String} (h : Includes groups group host) :
    groups.contains group = true := by
  obtain ⟨last, hchain, g, hg, -⟩ := h
  rcases hchain.cases_head with rfl | ⟨child, ⟨-, g', hg', -⟩, -⟩
  · exact Table.contains_iff.mpr ⟨g, hg⟩
  · exact Table.contains_iff.mpr ⟨g', hg'⟩

/-! ## The walk up -/

theorem subset_climb : visited ⊆ climb groups pending visited := by
  fun_induction climb groups pending visited with
  | case1 => exact List.Subset.refl _
  | case2 visited name rest new ih =>
      exact fun x hx => ih (List.mem_cons_of_mem name hx)
  | case3 visited name rest old ih => exact ih

theorem mem_climb_of_mem_pending {name : String} (hname : name ∈ pending)
    (defined : groups.contains name = true) : name ∈ climb groups pending visited := by
  fun_induction climb groups pending visited with
  | case1 => simp at hname
  | case2 visited first rest new ih =>
      rcases List.mem_cons.mp hname with rfl | hrest
      · exact subset_climb List.mem_cons_self
      · exact ih (List.mem_append_right _ hrest)
  | case3 visited first rest old ih =>
      rcases List.mem_cons.mp hname with rfl | hrest
      · have hvisited : name ∈ visited := by simpa [defined] using old
        exact subset_climb hvisited
      · exact ih hrest

/-- The parents of all that has been visited are visited or pending until nothing is pending. -/
theorem parents_mem_climb
    (closed : ∀ name ∈ visited, ∀ parent ∈ parents groups name,
      parent ∈ visited ∨ parent ∈ pending) :
    ∀ name ∈ climb groups pending visited, ∀ parent ∈ parents groups name,
      parent ∈ climb groups pending visited := by
  fun_induction climb groups pending visited with
  | case1 visited => simpa using closed
  | case2 visited first rest new ih =>
      apply ih
      intro name hname parent hparent
      rcases List.mem_cons.mp hname with rfl | hname
      · exact Or.inr (List.mem_append_left _ hparent)
      · rcases closed name hname parent hparent with hvisited | hpending
        · exact Or.inl (List.mem_cons_of_mem first hvisited)
        · rcases List.mem_cons.mp hpending with rfl | hrest
          · exact Or.inl List.mem_cons_self
          · exact Or.inr (List.mem_append_right _ hrest)
  | case3 visited first rest old ih =>
      apply ih
      intro name hname parent hparent
      rcases closed name hname parent hparent with hvisited | hpending
      · exact Or.inl hvisited
      · rcases List.mem_cons.mp hpending with rfl | hrest
        · have defined := contains_of_mem_parents hparent
          exact Or.inl (by simpa [defined] using old)
        · exact Or.inr hrest

theorem climb_sound {name : String} (h : name ∈ climb groups pending visited) :
    name ∈ visited ∨ ∃ start ∈ pending,
      groups.contains start = true ∧ ReflTransGen (Link groups) name start := by
  fun_induction climb groups pending visited with
  | case1 => exact Or.inl h
  | case2 visited first rest new ih =>
      rcases ih h with hvisited | ⟨start, hstart, defined, hchain⟩
      · rcases List.mem_cons.mp hvisited with rfl | hvisited
        · exact Or.inr ⟨name, List.mem_cons_self, new.1, .refl⟩
        · exact Or.inl hvisited
      · rcases List.mem_append.mp hstart with hparent | hrest
        · have hlink := link_of_mem_parents new.1 hparent
          exact Or.inr ⟨first, List.mem_cons_self, new.1, hchain.tail hlink⟩
        · exact Or.inr ⟨start, List.mem_cons_of_mem first hrest, defined, hchain⟩
  | case3 visited first rest old ih =>
      rcases ih h with hvisited | ⟨start, hstart, defined, hchain⟩
      · exact Or.inl hvisited
      · exact Or.inr ⟨start, List.mem_cons_of_mem first hstart, defined, hchain⟩

/-- The groups of a host are those that include it. -/
theorem mem_hostGroups {inv : Inventory} {group host : String} :
    group ∈ inv.hostGroups host ↔ Includes inv.groups group host := by
  have hnames : group ∈ inv.hostGroups host ↔
      inv.groups.contains group = true ∧
        group ∈ climb inv.groups (directGroups inv.groups host) [] := by
    simp [hostGroups, Table.mem_names]
  rw [hnames]
  clear hnames
  constructor
  · rintro ⟨-, hclimb⟩
    rcases climb_sound hclimb with hvisited | ⟨last, hlast, -, hchain⟩
    · simp at hvisited
    · exact ⟨last, hchain, mem_directGroups.mp hlast⟩
  · intro hincludes
    refine ⟨contains_of_includes hincludes, ?_⟩
    obtain ⟨last, hchain, hlists⟩ := hincludes
    have hdirect := mem_directGroups.mpr hlists
    obtain ⟨g, hg, -⟩ := hlists
    have hlast : last ∈ climb inv.groups (directGroups inv.groups host) [] :=
      mem_climb_of_mem_pending hdirect (Table.contains_iff.mpr ⟨g, hg⟩)
    induction hchain using ReflTransGen.head_induction_on with
    | refl => exact hlast
    | head hlink _ ih =>
        exact parents_mem_climb (by simp) _ ih _ (mem_parents_of_link hlink)

theorem hostGroups_ascending (inv : Inventory) (host : String) :
    (inv.hostGroups host).Pairwise (· < ·) :=
  (Table.names_ascending inv.groups).filter _

/-! ## The walk down -/

theorem mem_appendNew {names new : List String} {x : String} :
    x ∈ appendNew names new ↔ x ∈ names ∨ x ∈ new := by
  unfold appendNew
  induction new generalizing names with
  | nil => simp
  | cons name rest ih =>
      rw [List.foldl_cons, ih, List.mem_cons]
      split
      case isTrue hold =>
          have hmem : name ∈ names := by simpa using hold
          grind
      case isFalse => simp [or_assoc]

theorem nodup_appendNew {names : List String} (h : names.Nodup) (new : List String) :
    (appendNew names new).Nodup := by
  unfold appendNew
  induction new generalizing names with
  | nil => exact h
  | cons name rest ih =>
      rw [List.foldl_cons]
      apply ih
      split
      case isTrue => exact h
      case isFalse hnew =>
          have hnot : name ∉ names := by simpa using hnew
          exact List.nodup_append.mpr ⟨h, by simp, by grind⟩

theorem nodup_gather (h : hosts.Nodup) : (gather groups pending visited hosts).Nodup := by
  fun_induction gather groups pending visited hosts with
  | case1 => exact h
  | case2 visited hosts name rest new g hg ih => exact ih (nodup_appendNew h g.hosts)
  | case3 visited hosts name rest new hg ih => exact ih h
  | case4 visited hosts name rest old ih => exact ih h

theorem gather_sound {host : String} (h : host ∈ gather groups pending visited hosts) :
    host ∈ hosts ∨ ∃ start ∈ pending, Includes groups start host := by
  fun_induction gather groups pending visited hosts with
  | case1 => exact Or.inl h
  | case2 visited hosts name rest new g hg ih =>
      rcases ih h with hhost | ⟨start, hstart, hincludes⟩
      · rcases mem_appendNew.mp hhost with hhost | hlisted
        · exact Or.inl hhost
        · exact Or.inr ⟨name, List.mem_cons_self, name, .refl, g, hg, hlisted⟩
      · rcases List.mem_append.mp hstart with hchild | hrest
        · have hlink : Link groups name start := ⟨contains_of_includes hincludes, g, hg, hchild⟩
          obtain ⟨last, hchain, hlists⟩ := hincludes
          exact Or.inr ⟨name, List.mem_cons_self, last, hchain.head hlink, hlists⟩
        · exact Or.inr ⟨start, List.mem_cons_of_mem name hrest, hincludes⟩
  | case3 visited hosts name rest new hg ih =>
      rcases ih h with hhost | ⟨start, hstart, hincludes⟩
      · exact Or.inl hhost
      · exact Or.inr ⟨start, List.mem_cons_of_mem name hstart, hincludes⟩
  | case4 visited hosts name rest old ih =>
      rcases ih h with hhost | ⟨start, hstart, hincludes⟩
      · exact Or.inl hhost
      · exact Or.inr ⟨start, List.mem_cons_of_mem name hstart, hincludes⟩

/-- The visited groups have given their hosts, and their children are visited or pending. -/
def Explored (groups : Table Group) (pending visited hosts : List String) : Prop :=
  ∀ name ∈ visited, ∀ g, groups.get? name = some g →
    g.hosts ⊆ hosts ∧ ∀ child ∈ g.children, child ∈ visited ∨ child ∈ pending

/-- A name that is on top of the stack may be visited if what it adds is taken in. -/
theorem Explored.visit {name : String} {rest added hosts' : List String}
    (h : Explored groups (name :: rest) visited hosts) (hhosts : hosts ⊆ hosts')
    (hadded : ∀ g, groups.get? name = some g → g.hosts ⊆ hosts' ∧ g.children ⊆ added) :
    Explored groups (added ++ rest) (name :: visited) hosts' := by
  intro other hother g hg
  rcases List.mem_cons.mp hother with rfl | hother
  · obtain ⟨hgiven, hchildren⟩ := hadded g hg
    exact ⟨hgiven, fun child hchild => Or.inr (List.mem_append_left _ (hchildren hchild))⟩
  · obtain ⟨hgiven, hchildren⟩ := h other hother g hg
    refine ⟨fun host hhost => hhosts (hgiven hhost), fun child hchild => ?_⟩
    rcases hchildren child hchild with hvisited | hpending
    · exact Or.inl (List.mem_cons_of_mem name hvisited)
    · rcases List.mem_cons.mp hpending with rfl | hrest
      · exact Or.inl List.mem_cons_self
      · exact Or.inr (List.mem_append_right _ hrest)

theorem Explored.skip {name : String} {rest : List String}
    (h : Explored groups (name :: rest) visited hosts) (hname : name ∈ visited) :
    Explored groups rest visited hosts := by
  intro other hother g hg
  obtain ⟨hgiven, hchildren⟩ := h other hother g hg
  refine ⟨hgiven, fun child hchild => ?_⟩
  rcases hchildren child hchild with hvisited | hpending
  · exact Or.inl hvisited
  · rcases List.mem_cons.mp hpending with rfl | hrest
    · exact Or.inl hname
    · exact Or.inr hrest

/-- When nothing is pending, all that the visited groups include has been given. -/
theorem Explored.mem_of_includes (h : Explored groups [] visited hosts) {group host : String}
    (hgroup : group ∈ visited) (hincludes : Includes groups group host) : host ∈ hosts := by
  obtain ⟨last, hchain, g, hg, hhost⟩ := hincludes
  have hlast : last ∈ visited := by
    clear hg
    induction hchain with
    | refl => exact hgroup
    | tail _ hlink ih =>
        obtain ⟨-, g', hg', hchild⟩ := hlink
        simpa using (h _ ih g' hg').2 _ hchild
  exact (h last hlast g hg).1 hhost

theorem gather_complete (h : Explored groups pending visited hosts) {group host : String}
    (hgroup : group ∈ visited ∨ group ∈ pending) (hincludes : Includes groups group host) :
    host ∈ gather groups pending visited hosts := by
  fun_induction gather groups pending visited hosts with
  | case1 => exact h.mem_of_includes (by simpa using hgroup) hincludes
  | case2 visited hosts name rest new g hg ih =>
      have hgiven : ∀ g', groups.get? name = some g' →
          g'.hosts ⊆ appendNew hosts g.hosts ∧ g'.children ⊆ g.children := by
        intro g' hg'
        rw [hg] at hg'
        cases hg'
        exact ⟨fun host hhost => mem_appendNew.mpr (Or.inr hhost), List.Subset.refl _⟩
      have hexplored := h.visit (fun host hhost => mem_appendNew.mpr (Or.inl hhost)) hgiven
      apply ih hexplored
      simp only [List.mem_cons, List.mem_append] at hgroup ⊢
      grind
  | case3 visited hosts name rest new hg ih =>
      have hexplored : Explored groups ([] ++ rest) (name :: visited) hosts :=
        h.visit (List.Subset.refl hosts) (by simp [hg])
      apply ih hexplored
      simp only [List.mem_cons] at hgroup ⊢
      grind
  | case4 visited hosts name rest old ih =>
      have hname : name ∈ visited := by simpa using old
      apply ih (h.skip hname)
      rcases hgroup with hvisited | hpending
      · exact Or.inl hvisited
      · rcases List.mem_cons.mp hpending with rfl | hrest
        · exact Or.inl hname
        · exact Or.inr hrest

/-- The hosts of a group are those that it includes. -/
theorem mem_gather_self {group host : String} :
    host ∈ gather groups [group] [] [] ↔ Includes groups group host := by
  constructor
  · intro h
    rcases gather_sound h with hhost | ⟨start, hstart, hincludes⟩
    · simp at hhost
    · rwa [List.mem_singleton.mp hstart] at hincludes
  · intro h
    refine gather_complete ?_ (Or.inr (List.mem_singleton_self group)) h
    simp [Explored]

end Testbed.Inventory
