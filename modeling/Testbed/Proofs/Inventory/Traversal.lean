import Mathlib.Algebra.GroupWithZero.Nat
import Mathlib.Logic.Function.Iterate
import Testbed.Inventory.Visible
import Testbed.Proofs.Inventory.Links
import Testbed.Proofs.Inventory.Merge

/-!
# The two walks through the hierarchy

The walk up from the groups that list a host and the walk down from a group meet: a host is found
below a group if and only if the group is found above the host.  Each walk is a loop that takes one
name off its stack in a turn, and the number of turns is bounded by the links it can follow, however
the links run.
-/

namespace Testbed.Inventory

variable {groups : Table Group}

/-! ## Turns -/

/-- A walk up between two turns. -/
structure Ascent where
  pending : List String
  visited : List String

/-- One turn of the walk up. -/
def Ascent.turn (groups : Table Group) (a : Ascent) : Ascent :=
  match a.pending with
  | [] => a
  | name :: rest =>
    if groups.contains name = true ∧ a.visited.contains name = false then
      ⟨parents groups name ++ rest, name :: a.visited⟩
    else { a with pending := rest }

/-- A walk down between two turns. -/
structure Descent where
  pending : List String
  visited : List String
  hosts : List String

/-- One turn of the walk down. -/
def Descent.turn (groups : Table Group) (d : Descent) : Descent :=
  match d.pending with
  | [] => d
  | name :: rest =>
    if d.visited.contains name then { d with pending := rest }
    else
      match groups.get? name with
      | some g => ⟨g.children ++ rest, name :: d.visited, appendNew d.hosts g.hosts⟩
      | none => { d with pending := rest, visited := name :: d.visited }

/-- How many names are added to a stack at visits of those names of a list that have not been
visited, if each of them adds a number of names. -/
def outstanding (adds : String → Nat) (visited names : List String) : Nat :=
  ((names.filter fun name => !visited.contains name).map adds).sum

section Outstanding

variable {adds : String → Nat} {visited names : List String} {name : String}

theorem outstanding_cons_le :
    outstanding adds (name :: visited) names ≤ outstanding adds visited names := by
  unfold outstanding
  induction names with
  | nil => simp
  | cons first rest ih =>
      simp only [List.filter_cons]
      grind [not_contains_of_cons]

/-- A visit takes what it adds from what is outstanding. -/
theorem outstanding_cons_add_le (adds : String → Nat) (hname : name ∈ names)
    (new : visited.contains name = false) :
    outstanding adds (name :: visited) names + adds name ≤ outstanding adds visited names := by
  induction names with
  | nil => simp at hname
  | cons first rest ih =>
      by_cases hfirst : first = name
      · have hrest : outstanding adds (name :: visited) rest ≤ outstanding adds visited rest :=
          outstanding_cons_le
        have hnew : first ∉ visited := by simpa [hfirst] using new
        unfold outstanding at hrest ⊢
        subst hfirst
        rw [List.filter_cons_of_neg (by simp), List.filter_cons_of_pos (by simpa using hnew),
          List.map_cons, List.sum_cons]
        omega
      · have hmem : name ∈ rest := by simpa [Ne.symm hfirst] using hname
        have hrest := ih hmem
        unfold outstanding at hrest ⊢
        simp only [List.filter_cons]
        grind [not_contains_of_cons]

end Outstanding

/-- How many parents a group has. -/
def parentCount (groups : Table Group) (name : String) : Nat := (parents groups name).length

/-- How many children a group has. -/
def childCount (groups : Table Group) (name : String) : Nat :=
  ((groups.get? name).map fun g => g.children.length).getD 0

/-- The walk up ends, and has then visited what `climb` visits. -/
theorem climb_turns (groups : Table Group) (pending visited : List String) :
    ∃ turns ≤ pending.length + outstanding (parentCount groups) visited groups.names,
      (Ascent.turn groups)^[turns] ⟨pending, visited⟩ = ⟨[], climb groups pending visited⟩ := by
  fun_induction climb groups pending visited with
  | case1 visited => exact ⟨0, Nat.zero_le _, rfl⟩
  | case2 visited name rest new ih =>
      obtain ⟨turns, hle, hturns⟩ := ih
      have hvisit : _ + (parents groups name).length ≤ _ :=
        outstanding_cons_add_le (parentCount groups) (Table.mem_names.mpr new.1) new.2
      have hturn : Ascent.turn groups ⟨name :: rest, visited⟩ =
          ⟨parents groups name ++ rest, name :: visited⟩ := by
        simp only [Ascent.turn, if_pos new]
      refine ⟨turns + 1, ?_, ?_⟩
      · rw [List.length_append] at hle
        rw [List.length_cons]
        omega
      · rw [Function.iterate_succ_apply, hturn, hturns]
  | case3 visited name rest old ih =>
      obtain ⟨turns, hle, hturns⟩ := ih
      have hturn : Ascent.turn groups ⟨name :: rest, visited⟩ = ⟨rest, visited⟩ := by
        simp only [Ascent.turn, if_neg old]
      refine ⟨turns + 1, ?_, ?_⟩
      · rw [List.length_cons]
        omega
      · rw [Function.iterate_succ_apply, hturn, hturns]

/-- The walk down ends, and has then found the hosts that `gather` finds. -/
theorem gather_turns (groups : Table Group) (pending visited hosts : List String) :
    ∃ turns ≤ pending.length + outstanding (childCount groups) visited groups.names,
      ∃ visited', (Descent.turn groups)^[turns] ⟨pending, visited, hosts⟩ =
        ⟨[], visited', gather groups pending visited hosts⟩ := by
  fun_induction gather groups pending visited hosts with
  | case1 visited => exact ⟨0, Nat.zero_le _, visited, rfl⟩
  | case2 visited hosts name rest new g hg ih =>
      obtain ⟨turns, hle, visited', hturns⟩ := ih
      have hcount : childCount groups name = g.children.length := by simp [childCount, hg]
      have hname := Table.mem_names.mpr (Table.contains_iff.mpr ⟨g, hg⟩)
      have hvisit := outstanding_cons_add_le (childCount groups) hname new
      have hturn : Descent.turn groups ⟨name :: rest, visited, hosts⟩ =
          ⟨g.children ++ rest, name :: visited, appendNew hosts g.hosts⟩ := by
        simp only [Descent.turn, new, hg, Bool.false_eq_true, if_false]
      refine ⟨turns + 1, ?_, visited', ?_⟩
      · rw [List.length_append] at hle
        rw [List.length_cons]
        omega
      · rw [Function.iterate_succ_apply, hturn, hturns]
  | case3 visited hosts name rest new hg ih =>
      obtain ⟨turns, hle, visited', hturns⟩ := ih
      have hvisit : outstanding (childCount groups) (name :: visited) groups.names ≤
          outstanding (childCount groups) visited groups.names := outstanding_cons_le
      have hturn : Descent.turn groups ⟨name :: rest, visited, hosts⟩ =
          ⟨rest, name :: visited, hosts⟩ := by
        simp only [Descent.turn, new, hg, Bool.false_eq_true, if_false]
      refine ⟨turns + 1, ?_, visited', ?_⟩
      · rw [List.length_cons]
        omega
      · rw [Function.iterate_succ_apply, hturn, hturns]
  | case4 visited hosts name rest old ih =>
      obtain ⟨turns, hle, visited', hturns⟩ := ih
      have hvisited : visited.contains name = true := by simpa using old
      have hturn : Descent.turn groups ⟨name :: rest, visited, hosts⟩ =
          ⟨rest, visited, hosts⟩ := by
        simp only [Descent.turn, hvisited, if_true]
      refine ⟨turns + 1, ?_, visited', ?_⟩
      · rw [List.length_cons]
        omega
      · rw [Function.iterate_succ_apply, hturn, hturns]

/-! ## Listed hosts are known -/

/-- Every host that a group lists is known. -/
def Known (inv : Inventory) : Prop :=
  inv.groups.Holds fun g => ∀ host ∈ g.hosts, (inv.hosts.get? host).isSome

theorem isSome_alter {hosts : Table Json.Vars} {name other : String} {f : Json.Vars → Json.Vars}
    (h : other = name ∨ (hosts.get? other).isSome) :
    ((hosts.alter name ∅ f).get? other).isSome := by
  rw [Table.get?_alter]
  split
  case isTrue => rfl
  case isFalse hne => exact h.resolve_left hne

theorem isSome_register {hosts : Table Json.Vars} {names : List String} {host : String}
    (h : host ∈ names ∨ (hosts.get? host).isSome) : ((register hosts names).get? host).isSome := by
  unfold register
  induction names generalizing hosts with
  | nil => simpa using h
  | cons name rest ih =>
      apply ih
      rcases h with hmem | hknown
      · rcases List.mem_cons.mp hmem with rfl | hrest
        · exact Or.inr (isSome_alter (Or.inl rfl))
        · exact Or.inl hrest
      · exact Or.inr (isSome_alter (Or.inr hknown))

theorem Known.mergeGroup {inv : Inventory} (h : inv.Known) (name : String) (g : Group) :
    (inv.mergeGroup name g).Known := by
  have hearlier : inv.groups.Holds fun earlier =>
      ∀ host ∈ earlier.hosts, ((register inv.hosts g.hosts).get? host).isSome :=
    h.imp fun earlier hknown host hhost => isSome_register (Or.inr (hknown host hhost))
  refine hearlier.alter name (by simp) ?_
  intro earlier hknown host hhost
  rcases mem_appendNew.mp hhost with hold | hnew
  · exact hknown host hold
  · exact isSome_register (Or.inl hnew)

theorem Known.mergeHost {inv : Inventory} (h : inv.Known) (name : String) (vars : Json.Vars) :
    (inv.mergeHost name vars).Known :=
  h.imp fun _ hknown host hhost => isSome_alter (Or.inr (hknown host hhost))

theorem Known.mergeFile {inv : Inventory} (h : inv.Known) (file : File) :
    (inv.mergeFile file).Known :=
  mergeFile_preserves (fun _ name g hknown _ => hknown.mergeGroup name g)
    (fun _ name vars hknown _ => hknown.mergeHost name vars) h

theorem known_of_load {t : FileTree} {paths : List Path} {inv : Inventory}
    (h : load t paths = .ok inv) : inv.Known :=
  load_preserves Table.holds_empty (fun _ _ hknown => hknown)
    (fun _ _ _ file _ hknown => hknown.mergeFile file) h

theorem Known.isSome {inv : Inventory} (h : inv.Known) {group host : String}
    (hincludes : Includes inv.groups group host) : (inv.hostVars host).isSome := by
  obtain ⟨last, -, g, hg, hhost⟩ := hincludes
  exact h last g hg host hhost

theorem isSome_visibleVars {inv : Inventory} {host : String} (h : (inv.hostVars host).isSome) :
    (inv.visibleVars host).isSome := by
  rw [visibleVars, Option.isSome_map]
  exact h

/-! ## Both walks agree -/

/-- In a loaded inventory, however its groups are linked, the hosts found below a group are those
that have it among their groups, and those that a chain of links leads to.  They are known, and each
is found once.  Both walks end. -/
theorem groupHosts_agrees_hostGroups {t : FileTree} {paths : List Path} {inv : Inventory}
    (loaded : load t paths = .ok inv) {group : String}
    (defined : inv.groups.contains group = true) :
    ∃ hosts, inv.groupHosts group = some hosts ∧ hosts.Nodup ∧
      (∀ host, (host ∈ hosts ↔ group ∈ inv.hostGroups host) ∧
        (host ∈ hosts ↔ Includes inv.groups group host)) ∧
      (∀ host ∈ hosts, (inv.hostVars host).isSome ∧ (inv.visibleVars host).isSome) ∧
      (∃ turns ≤ 1 + (inv.groups.names.map (childCount inv.groups)).sum, ∃ visited,
        (Descent.turn inv.groups)^[turns] ⟨[group], [], []⟩ = ⟨[], visited, hosts⟩) ∧
      ∀ host, ∃ turns ≤ (directGroups inv.groups host).length +
          (inv.groups.names.map (parentCount inv.groups)).sum, ∃ visited,
        (Ascent.turn inv.groups)^[turns] ⟨directGroups inv.groups host, []⟩ = ⟨[], visited⟩ ∧
          inv.hostGroups host = inv.groups.names.filter visited.contains := by
  have hall : ∀ adds, outstanding adds [] inv.groups.names = (inv.groups.names.map adds).sum := by
    intro adds
    rw [outstanding, List.filter_eq_self.mpr (by simp)]
  have hfound : ∀ host, host ∈ gather inv.groups [group] [] [] ↔
      Includes inv.groups group host := fun _ => mem_gather_self
  refine ⟨gather inv.groups [group] [] [], by simp [groupHosts, defined],
    nodup_gather List.nodup_nil, fun host => ⟨?_, hfound host⟩, fun host hhost => ?_, ?_, ?_⟩
  · rw [hfound, mem_hostGroups]
  · have hknown := (known_of_load loaded).isSome ((hfound host).mp hhost)
    exact ⟨hknown, isSome_visibleVars hknown⟩
  · obtain ⟨turns, hle, visited, hturns⟩ := gather_turns inv.groups [group] [] []
    rw [hall] at hle
    exact ⟨turns, hle, visited, hturns⟩
  · intro host
    obtain ⟨turns, hle, hturns⟩ := climb_turns inv.groups (directGroups inv.groups host) []
    rw [hall] at hle
    exact ⟨turns, hle, _, hturns, rfl⟩

/-- A cycle of two groups, one of which is its own child and has a child that is no group. -/
theorem groupHosts_agrees_hostGroups_cycle :
    let document := "\x7b\"a\":\x7b\"children\":[\"b\",\"a\",\"x\"]\x7d,"
      ++ "\"b\":\x7b\"children\":[\"a\"],\"hosts\":[\"h\"]\x7d\x7d"
    let t : FileTree := { nodes := [(["inv"], .file (Text.Utf8.encode document))] }
    let inv := (load t ["inv"]).toOption.getD {}
    load t ["inv"] = .ok inv ∧ inv.groups.contains "a" = true ∧
      ∃ hosts, inv.groupHosts "a" = some hosts ∧ hosts.Nodup ∧ "h" ∈ hosts ∧
        "a" ∈ inv.hostGroups "h" ∧ Includes inv.groups "a" "h" := by
  intro document t inv
  have facts : (load t ["inv"]).isOk = true ∧ inv.groups.contains "a" = true ∧
      ((inv.groups.get? "a").any fun g => g.children.contains "b") = true ∧
      ((inv.groups.get? "b").any fun g => g.hosts.contains "h") = true := by
    decide +kernel
  obtain ⟨hloads, defined, child, member⟩ := facts
  have loaded : load t ["inv"] = .ok inv := Except.eq_ok_of_isOk _ hloads
  obtain ⟨a, ha, hb⟩ := (Option.any_eq_true _ _).mp child
  obtain ⟨b, hgroup, hh⟩ := (Option.any_eq_true _ _).mp member
  have link : Link inv.groups "a" "b" :=
    ⟨Table.contains_iff.mpr ⟨b, hgroup⟩, a, ha, by simpa using hb⟩
  have listed : Includes inv.groups "a" "h" :=
    ⟨"b", Relation.ReflTransGen.single link, b, hgroup, by simpa using hh⟩
  refine ⟨loaded, defined, ?_⟩
  obtain ⟨hosts, hhosts, hnodup, hagrees, -⟩ := groupHosts_agrees_hostGroups loaded defined
  have hmem := (hagrees "h").2.mpr listed
  exact ⟨hosts, hhosts, hnodup, hmem, (hagrees "h").1.mp hmem, listed⟩

end Testbed.Inventory
