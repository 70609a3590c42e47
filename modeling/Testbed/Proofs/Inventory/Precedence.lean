import Mathlib.Data.List.Induction
import Testbed.Inventory.Visible
import Testbed.Proofs.Inventory.Depth

/-!
# Precedence of variables

The layers of a host are its groups in ascending order of depth and name, and the variables of each
layer go over those of the layers before it.  So the last layer that has a variable decides it.
Without cycles that is never a group with a descendant among those that have the variable, since an
ancestor is less deep.
-/

namespace Testbed.Inventory

open Relation (TransGen)

/-- A group has a variable of its own, with a value. -/
def Gives (groups : Table Group) (group name : String) (value : Json) : Prop :=
  ∃ g, groups.get? group = some g ∧ g.vars.get? name = some value

/-- Of the groups that include a host and have a variable, one decides its value: the one with the
longest chain of ancestors and, among several of those, with the greatest name.  It is no ancestor
of the others. -/
structure Decides (groups : Table Group) (host name group : String) (value : Json) : Prop where
  includes : Includes groups group host
  gives : Gives groups group name value
  greatest : ∀ other value', Includes groups other host → Gives groups other name value' →
    ∀ m n, LongestAncestry groups other m → LongestAncestry groups group n →
      m < n ∨ m = n ∧ other ≤ group
  innermost : ∀ other value', Includes groups other host → Gives groups other name value' →
    ¬TransGen (Link groups) group other

variable {inv : Inventory}

theorem get?_groupVars {group name : String} {value : Json} :
    (inv.groupVars group).get? name = some value ↔ Gives inv.groups group name value := by
  rw [groupVars, Gives]
  cases hg : inv.groups.get? group with
  | none => simp
  | some g => simp

/-! ## Layers -/

theorem outer_iff {a b : Nat × String} :
    outer a b = true ↔ a.1 < b.1 ∨ a.1 = b.1 ∧ a.2 ≤ b.2 := by
  simp [outer]

theorem outer_refl (a : Nat × String) : outer a a = true :=
  outer_iff.mpr (Or.inr ⟨rfl, String.le_refl a.2⟩)

theorem outer_trans (a b c : Nat × String) (hab : outer a b = true) (hbc : outer b c = true) :
    outer a c = true := by
  rw [outer_iff] at hab hbc ⊢
  rcases hab with hlt | ⟨heq, hle⟩
  · rcases hbc with hlt' | ⟨heq', -⟩
    · exact Or.inl (Nat.lt_trans hlt hlt')
    · exact Or.inl (heq' ▸ hlt)
  · rcases hbc with hlt' | ⟨heq', hle'⟩
    · exact Or.inl (heq ▸ hlt')
    · exact Or.inr ⟨heq.trans heq', String.le_trans hle hle'⟩

theorem outer_total (a b : Nat × String) : (outer a b || outer b a) = true := by
  rw [Bool.or_eq_true, outer_iff, outer_iff]
  rcases Nat.lt_trichotomy a.1 b.1 with hlt | heq | hgt
  · exact Or.inl (Or.inl hlt)
  · rcases String.le_total a.2 b.2 with hle | hle
    · exact Or.inl (Or.inr ⟨heq, hle⟩)
    · exact Or.inr (Or.inr ⟨heq.symm, hle⟩)
  · exact Or.inr (Or.inl hgt)

theorem layers_sorted (inv : Inventory) (host : String) :
    (inv.layers host).Pairwise fun a b => outer a b = true :=
  List.pairwise_mergeSort outer_trans outer_total _

theorem mem_layers {host : String} {layer : Nat × String} :
    layer ∈ inv.layers host ↔
      Includes inv.groups layer.2 host ∧ layer.1 = depth inv.groups layer.2 := by
  obtain ⟨level, group⟩ := layer
  rw [layers, List.mem_mergeSort, List.mem_map]
  constructor
  · rintro ⟨name, hname, heq⟩
    cases heq
    exact ⟨mem_hostGroups.mp hname, rfl⟩
  · rintro ⟨hincludes, heq⟩
    exact ⟨group, mem_hostGroups.mpr hincludes, by rw [← heq]⟩

/-- The variables of some layers, one over the other. -/
def stacked (inv : Inventory) (layers : List (Nat × String)) : Json.Vars :=
  layers.foldl (fun vars layer => vars.merge (inv.groupVars layer.2)) ∅

/-- The last layer that has a variable decides it. -/
theorem get?_stacked (inv : Inventory) {layers : List (Nat × String)}
    (sorted : layers.Pairwise fun a b => outer a b = true) (name : String) :
    (∃ layer ∈ layers, ∃ value, (inv.groupVars layer.2).get? name = some value ∧
      (stacked inv layers).get? name = some value ∧
      ∀ other ∈ layers, ((inv.groupVars other.2).get? name).isSome → outer other layer = true) ∨
    (∀ layer ∈ layers, (inv.groupVars layer.2).get? name = none) ∧
      (stacked inv layers).get? name = none := by
  induction layers using List.reverseRecOn with
  | nil => exact Or.inr ⟨by simp, rfl⟩
  | append_singleton front last ih =>
      obtain ⟨hfront, -, hlast⟩ := List.pairwise_append.mp sorted
      have hstacked : (stacked inv (front ++ [last])).get? name =
          ((inv.groupVars last.2).get? name).or ((stacked inv front).get? name) := by
        rw [stacked, List.foldl_append, List.foldl_cons, List.foldl_nil, Table.get?_merge]
        rfl
      rw [hstacked]
      cases hvalue : (inv.groupVars last.2).get? name with
      | some value =>
          refine Or.inl ⟨last, by simp, value, hvalue, rfl, ?_⟩
          intro other hother _
          rcases List.mem_append.mp hother with hother | hother
          · exact hlast other hother last (List.mem_singleton_self last)
          · rw [List.mem_singleton.mp hother]
            exact outer_refl last
      | none =>
          rw [Option.none_or]
          rcases ih hfront with ⟨layer, hlayer, value, hgives, hget, hgreatest⟩ | ⟨hnone, hget⟩
          · refine Or.inl ⟨layer, List.mem_append_left _ hlayer, value, hgives, hget, ?_⟩
            intro other hother hsome
            rcases List.mem_append.mp hother with hother | hother
            · exact hgreatest other hother hsome
            · rw [List.mem_singleton.mp hother, hvalue] at hsome
              cases hsome
          · refine Or.inr ⟨?_, hget⟩
            intro layer hlayer
            rcases List.mem_append.mp hlayer with hlayer | hlayer
            · exact hnone layer hlayer
            · rwa [List.mem_singleton.mp hlayer]

/-- The layer that decides a variable is that of the group that decides it. -/
theorem Acyclic.decides (acyclic : Acyclic inv.groups) {host name : String}
    {layer : Nat × String} {value : Json} (hlayer : layer ∈ inv.layers host)
    (hgives : (inv.groupVars layer.2).get? name = some value)
    (hgreatest : ∀ other ∈ inv.layers host, ((inv.groupVars other.2).get? name).isSome →
      outer other layer = true) :
    Decides inv.groups host name layer.2 value := by
  obtain ⟨hincludes, hdepth⟩ := mem_layers.mp hlayer
  have houter : ∀ other value', Includes inv.groups other host →
      Gives inv.groups other name value' → outer (depth inv.groups other, other) layer = true := by
    intro other value' hother hgives'
    apply hgreatest _ (mem_layers.mpr ⟨hother, rfl⟩)
    rw [get?_groupVars.mpr hgives']
    rfl
  refine ⟨hincludes, get?_groupVars.mp hgives, ?_, ?_⟩
  · intro other value' hother hgives' m n hm hn
    have hle := outer_iff.mp (houter other value' hother hgives')
    rw [hm.unique (acyclic.longestAncestry (contains_of_includes hother)),
      hn.unique (acyclic.longestAncestry (contains_of_includes hincludes)), ← hdepth]
    exact hle
  · intro other value' hother hgives' habove
    have hle := outer_iff.mp (houter other value' hother hgives')
    have hlt := acyclic.depth_lt habove
    dsimp only at hle
    omega

/-! ## Visible variables -/

/-- In a hierarchy without cycles a known host sees its own variables first, and then each variable
of its groups as the innermost group has it; two names are reserved. -/
theorem visibleVars_precedence (acyclic : Acyclic inv.groups) {host : String} {own : Json.Vars}
    (known : inv.hostVars host = some own) :
    ∃ vars, inv.visibleVars host = some vars ∧
      vars.get? "inventory_hostname" = some (.string host) ∧
      (∃ names, vars.get? "group_names" = some (Json.ofStrings names) ∧
        names.Pairwise (· < ·) ∧
        ∀ group, group ∈ names ↔
          Includes inv.groups group host ∧ group ≠ "all" ∧ group ≠ "ungrouped") ∧
      (∀ group, Includes inv.groups group host → ∃ n, LongestAncestry inv.groups group n) ∧
      ∀ name, name ≠ "inventory_hostname" → name ≠ "group_names" →
        (∃ value, own.get? name = some value ∧ vars.get? name = some value) ∨
        own.get? name = none ∧
          ((∃ group value, Decides inv.groups host name group value ∧
              vars.get? name = some value) ∨
            (∀ group value, Includes inv.groups group host →
              ¬Gives inv.groups group name value) ∧ vars.get? name = none) := by
  have hown : inv.hosts.get? host = some own := known
  refine ⟨_, by rw [visibleVars, hown, Option.map_some], ?_, ?_, ?_, ?_⟩
  · simp [Table.get?_insert]
  · refine ⟨(inv.hostGroups host).filter fun group => !isUniversal group,
      Table.get?_insert_self _ _ _, (hostGroups_ascending inv host).filter _, fun group => ?_⟩
    simp [mem_hostGroups, isUniversal]
  · intro group hincludes
    exact ⟨_, acyclic.longestAncestry (contains_of_includes hincludes)⟩
  · intro name hhost hgroups
    rw [Table.get?_insert, if_neg hgroups, Table.get?_insert, if_neg hhost, Table.get?_merge]
    cases hvalue : own.get? name with
    | some value => exact Or.inl ⟨value, rfl, rfl⟩
    | none =>
        right
        refine ⟨rfl, ?_⟩
        rw [Option.none_or]
        rcases get?_stacked inv (layers_sorted inv host) name with
          ⟨layer, hlayer, value, hgives, hget, hgreatest⟩ | ⟨hnone, hget⟩
        · exact Or.inl ⟨layer.2, value, acyclic.decides hlayer hgives hgreatest, hget⟩
        · refine Or.inr ⟨?_, hget⟩
          intro group value hincludes hgives
          have hno := hnone (depth inv.groups group, group) (mem_layers.mpr ⟨hincludes, rfl⟩)
          rw [get?_groupVars.mpr hgives] at hno
          cases hno

/-- Two chains of different lengths lead to a group whose name comes first, and which decides. -/
theorem visibleVars_precedence_diamond :
    let vars (value : String) : Json.Vars := Table.ofList [("k", .string value)]
    let inv : Inventory :=
      { hosts := Table.ofList [("h", ∅)]
        groups := Table.ofList [
          ("all", { children := ["rack", "site", "x"], vars := vars "all" }),
          ("site", { children := ["rack"], vars := vars "site" }),
          ("rack", { hosts := ["h"], vars := vars "rack" })] }
    Acyclic inv.groups ∧ inv.hostVars "h" = some ∅ ∧
      ∃ visible, inv.visibleVars "h" = some visible ∧
        visible.get? "inventory_hostname" = some (.string "h") ∧
        ∃ group value, Decides inv.groups "h" "k" group value ∧
          visible.get? "k" = some value := by
  intro vars inv
  have acyclic : Acyclic inv.groups := by decide +kernel
  have known : inv.hostVars "h" = some ∅ := rfl
  refine ⟨acyclic, known, ?_⟩
  obtain ⟨visible, hvisible, hhost, -, -, hothers⟩ := visibleVars_precedence acyclic known
  refine ⟨visible, hvisible, hhost, ?_⟩
  rcases hothers "k" (by decide) (by decide) with ⟨value, hown, -⟩ | ⟨-, hdecides | ⟨hnone, -⟩⟩
  · cases hown
  · exact hdecides
  · have hrack : (inv.groups.get? "rack").any fun entry =>
        "h" ∈ entry.hosts ∧ (entry.vars.get? "k").isSome := by
      decide +kernel
    obtain ⟨entry, hentry, hholds⟩ := (Option.any_eq_true _ _).mp hrack
    obtain ⟨hlisted, hset⟩ := of_decide_eq_true hholds
    obtain ⟨value, hvalue⟩ := Option.isSome_iff_exists.mp hset
    exact absurd ⟨entry, hentry, hvalue⟩
      (hnone "rack" value ⟨"rack", .refl, entry, hentry, hlisted⟩)

end Testbed.Inventory
