import Testbed.Proofs.Facts.Transparency
import Testbed.Proofs.Inventory.Preorder
import Testbed.Proofs.Inventory.Traversal

/-!
# The host that answers for a group

A question about a group is answered for one of its hosts: the first one, or the first that is no
neighbouring virtual machine.  In a loaded inventory every host that a group lists is known, so the
one that is chosen has variables, and a question has no answer only where there is no host to
choose.
-/

namespace Testbed.Facts

open Inventory (Includes load)

/-- The name of a neighbouring virtual machine begins with `VM` and a digit. -/
def NamesNeighbor (host : String) : Prop :=
  ∃ digit rest, host.toList = 'V' :: 'M' :: digit :: rest ∧ '0' ≤ digit ∧ digit ≤ '9'

/-- Of the hosts of a group, the first one that has a property. -/
def FirstOf (inv : Inventory) (group : String) (P : String → Prop) (host : String) : Prop :=
  ∃ before after, inv.groupHosts group = some (before ++ host :: after) ∧ P host ∧
    ∀ earlier ∈ before, ¬P earlier

variable {inv : Inventory} {group host : String}

theorem isNeighborMachine_iff : isNeighborMachine host = true ↔ NamesNeighbor host := by
  have hdigit : ∀ c : Char, c.isDigit = true ↔ '0' ≤ c ∧ c ≤ '9' := by
    intro c
    simp [Char.isDigit, Char.le_def]
  rw [isNeighborMachine, NamesNeighbor]
  split
  case h_1 c rest htext => simp [htext, hdigit]
  case h_2 hother =>
      refine iff_of_false Bool.false_ne_true ?_
      rintro ⟨digit, rest, htext, -⟩
      exact hother digit rest htext

theorem not_isNeighborMachine_iff : (!isNeighborMachine host) = true ↔ ¬NamesNeighbor host := by
  rw [← isNeighborMachine_iff, Bool.not_eq_true', Bool.not_eq_true]

/-! ## Choosing a host -/

section Chosen

variable {P : String → Prop} {test : String → Bool}

theorem includes_of_firstOf (h : FirstOf inv group P host) : Includes inv.groups group host := by
  obtain ⟨before, after, hhosts, -⟩ := h
  rw [Inventory.groupHosts, Option.ite_none_right_eq_some, Option.some.injEq] at hhosts
  rw [← Inventory.mem_gather_self, hhosts.2]
  exact List.mem_append_right before List.mem_cons_self

theorem chosen_eq_some_iff (htest : ∀ host, test host = true ↔ P host) :
    (inv.groupHosts group).bind (List.find? test) = some host ↔ FirstOf inv group P host := by
  rw [Option.bind_eq_some_iff, FirstOf]
  simp only [List.find?_eq_some_iff_append, htest, Bool.not_eq_true', ← Bool.not_eq_true]
  constructor
  · rintro ⟨_, hhosts, hhost, before, after, rfl, hbefore⟩
    exact ⟨before, after, hhosts, hhost, hbefore⟩
  · rintro ⟨before, after, hhosts, hhost, hbefore⟩
    exact ⟨_, hhosts, hhost, before, after, rfl, hbefore⟩

theorem chosen_eq_none_iff (htest : ∀ host, test host = true ↔ P host) :
    (inv.groupHosts group).bind (List.find? test) = none ↔
      inv.groups.contains group = false ∨ ∀ host, Includes inv.groups group host → ¬P host := by
  rw [Inventory.groupHosts]
  split
  case isTrue hdefined => simp [hdefined, List.find?_eq_none, Inventory.mem_gather_self, htest]
  case isFalse hdefined => simp [hdefined]

/-- A group that includes a host with a property has a first one. -/
theorem exists_firstOf (hincludes : Includes inv.groups group host) (hhost : P host) :
    ∃ first, FirstOf inv group P first := by
  classical
  have htest : ∀ host, decide (P host) = true ↔ P host := fun _ => decide_eq_true_iff
  have hsome : (inv.groupHosts group).bind (List.find? fun host => decide (P host)) ≠ none := by
    rw [ne_eq, chosen_eq_none_iff htest, Inventory.contains_of_includes hincludes]
    rintro (hfalse | hnone)
    · cases hfalse
    · exact hnone host hincludes hhost
  obtain ⟨first, hfirst⟩ := Option.ne_none_iff_exists'.mp hsome
  exact ⟨first, (chosen_eq_some_iff htest).mp hfirst⟩

end Chosen

theorem firstHost?_eq (inv : Inventory) (group : String) :
    firstHost? inv group = (inv.groupHosts group).bind (List.find? fun _ => true) := by
  rw [firstHost?]
  congr 1
  funext hosts
  rcases hosts with - | ⟨first, rest⟩
  · rfl
  · rfl

theorem firstHost?_eq_some_iff :
    firstHost? inv group = some host ↔ FirstOf inv group (fun _ => True) host := by
  rw [firstHost?_eq, chosen_eq_some_iff fun _ => iff_of_true rfl trivial]

theorem firstHost?_eq_none_iff : firstHost? inv group = none ↔
    inv.groups.contains group = false ∨ ∀ host, ¬Includes inv.groups group host := by
  rw [firstHost?_eq, chosen_eq_none_iff (P := fun _ => True) fun _ => iff_of_true rfl trivial]
  simp

theorem testServer?_eq_some_iff : testServer? inv group = some host ↔
    FirstOf inv group (fun host => ¬NamesNeighbor host) host :=
  chosen_eq_some_iff fun _ => not_isNeighborMachine_iff

theorem testServer?_eq_none_iff : testServer? inv group = none ↔
    inv.groups.contains group = false ∨
      ∀ host, Includes inv.groups group host → NamesNeighbor host := by
  rw [testServer?, chosen_eq_none_iff fun _ => not_isNeighborMachine_iff]
  simp only [Classical.not_not]

/-! ## The variables of the chosen host -/

theorem get?_inventory_hostname {visible : Json.Vars} (h : inv.visibleVars host = some visible) :
    visible.get? "inventory_hostname" = some (.string host) := by
  rw [Inventory.visibleVars, Option.map_eq_some_iff] at h
  obtain ⟨own, -, rfl⟩ := h
  simp [Table.get?_insert]

theorem exists_vars (known : inv.Known) (h : Includes inv.groups group host) :
    ∃ own visible, inv.hostVars host = some own ∧ inv.visibleVars host = some visible ∧
      visible.get? "inventory_hostname" = some (.string host) := by
  have hhost := known.isSome h
  obtain ⟨own, hown⟩ := Option.isSome_iff_exists.mp hhost
  obtain ⟨visible, hvisible⟩ := Option.isSome_iff_exists.mp (Inventory.isSome_visibleVars hhost)
  exact ⟨own, visible, hown, hvisible, get?_inventory_hostname hvisible⟩

/-- A chosen host has variables, so there is no answer only if no host is chosen. -/
theorem answer_eq_none_iff (known : inv.Known) {P : String → Prop} {chosen : Option String}
    {vars? : String → Option Json.Vars}
    (hchosen : ∀ host, chosen = some host → FirstOf inv group P host)
    (hvars : ∀ host, (inv.hostVars host).isSome → (vars? host).isSome) :
    chosen.bind vars? = none ↔ chosen = none := by
  rcases chosen with - | host
  · simp
  · have hincludes := includes_of_firstOf (hchosen host rfl)
    have hsome := hvars host (known.isSome hincludes)
    rw [Option.bind_some, ← Option.not_isSome_iff_eq_none]
    simp [hsome]

/-! ## Questions about groups -/

theorem uncached_eq_ok {t : FileTree} {files : List Path} (loaded : load t files = .ok inv)
    (q : Query) (name : String) (answer : Option Json.Vars) :
    q.uncached t { files, name } = .ok answer ↔ q.answer inv name = answer := by
  rw [Query.uncached, loaded]
  exact ⟨Except.ok.inj, congrArg Except.ok⟩

/-- In a loaded inventory a question about a group has no answer if and only if the name is no
group or no host that is reached from it can be chosen.  Otherwise it is answered for the first host
that can be, and both questions about a test server are answered for the same one. -/
theorem group_answered_for_first {t : FileTree} {files : List Path} {inv : Inventory}
    (loaded : load t files = .ok inv) (name : String) :
    let ask (q : Query) := q.uncached t { files, name }
    (ask .groupVisibleVars = .ok none ↔
      inv.groups.contains name = false ∨ ∀ host, ¬Includes inv.groups name host) ∧
    ((∃ host, Includes inv.groups name host) →
      ∃ host visible, FirstOf inv name (fun _ => True) host ∧
        inv.visibleVars host = some visible ∧ ask .groupVisibleVars = .ok (some visible) ∧
        visible.get? "inventory_hostname" = some (.string host)) ∧
    (∀ q, q = .testServerVars ∨ q = .testServerVisibleVars →
      (ask q = .ok none ↔ inv.groups.contains name = false ∨
        ∀ host, Includes inv.groups name host → NamesNeighbor host)) ∧
    ((∃ host, Includes inv.groups name host ∧ ¬NamesNeighbor host) →
      ∃ host own visible, FirstOf inv name (fun host => ¬NamesNeighbor host) host ∧
        inv.hostVars host = some own ∧ inv.visibleVars host = some visible ∧
        ask .testServerVars = .ok (some own) ∧ ask .testServerVisibleVars = .ok (some visible) ∧
        visible.get? "inventory_hostname" = some (.string host)) := by
  have known := Inventory.known_of_load loaded
  intro ask
  simp only [ask, uncached_eq_ok loaded]
  refine ⟨?_, ?_, ?_, ?_⟩
  · rw [Query.answer, answer_eq_none_iff known (fun _ => firstHost?_eq_some_iff.mp)
      fun _ => Inventory.isSome_visibleVars, firstHost?_eq_none_iff]
  · rintro ⟨host, hincludes⟩
    obtain ⟨first, hfirst⟩ := exists_firstOf hincludes (P := fun _ => True) trivial
    obtain ⟨-, visible, -, hvisible, hname⟩ := exists_vars known (includes_of_firstOf hfirst)
    refine ⟨first, visible, hfirst, hvisible, ?_, hname⟩
    rw [Query.answer, firstHost?_eq_some_iff.mpr hfirst, Option.bind_some, hvisible]
  · rintro q (rfl | rfl)
    · rw [Query.answer, answer_eq_none_iff known (fun _ => testServer?_eq_some_iff.mp)
        fun _ hhost => hhost, testServer?_eq_none_iff]
    · rw [Query.answer, answer_eq_none_iff known (fun _ => testServer?_eq_some_iff.mp)
        fun _ => Inventory.isSome_visibleVars, testServer?_eq_none_iff]
  · rintro ⟨host, hincludes, hhost⟩
    obtain ⟨first, hfirst⟩ := exists_firstOf hincludes (P := fun host => ¬NamesNeighbor host) hhost
    obtain ⟨own, visible, hown, hvisible, hname⟩ :=
      exists_vars known (includes_of_firstOf hfirst)
    have hserver := testServer?_eq_some_iff.mpr hfirst
    refine ⟨first, own, visible, hfirst, hown, hvisible, ?_, ?_, hname⟩
    · rw [Query.answer, hserver, Option.bind_some, hown]
    · rw [Query.answer, hserver, Option.bind_some, hvisible]

/-- The first host of a group is a neighbour, and those of its child have names that begin alike. -/
theorem group_answered_for_first_neighbors :
    let document := "\x7b\"servers\":\x7b\"hosts\":[\"VM0100\"],\"children\":[\"rack\"]\x7d,"
      ++ "\"rack\":\x7b\"hosts\":[\"VM1\",\"VM\",\"server\"]\x7d\x7d"
    let t : FileTree := { nodes := [(["inv"], .file (Text.Utf8.encode document))] }
    let inv := (load t ["inv"]).toOption.getD {}
    load t ["inv"] = .ok inv ∧
      (∃ visible, Query.uncached .groupVisibleVars t { files := ["inv"], name := "servers" } =
          .ok (some visible) ∧
        visible.get? "inventory_hostname" = some (.string "VM0100")) ∧
      ∃ visible, Query.uncached .testServerVisibleVars t { files := ["inv"], name := "servers" } =
          .ok (some visible) ∧
        visible.get? "inventory_hostname" = some (.string "VM") := by
  intro document t inv
  have facts : (load t ["inv"]).isOk = true ∧
      (inv.groups.get? "servers").map (fun g => (g.hosts, g.children)) =
        some (["VM0100"], ["rack"]) ∧
      (inv.groups.get? "rack").map (fun g => (g.hosts, g.children)) =
        some (["VM1", "VM", "server"], []) := by
    decide +kernel
  obtain ⟨hloads, hservers, hrack⟩ := facts
  have loaded : load t ["inv"] = .ok inv := Except.eq_ok_of_isOk _ hloads
  obtain ⟨⟨_, _, _⟩, hservers, hfields⟩ := Option.map_eq_some_iff.mp hservers
  cases hfields
  obtain ⟨⟨_, _, _⟩, hrack, hfields⟩ := Option.map_eq_some_iff.mp hrack
  cases hfields
  have hhosts : inv.groupHosts "servers" = some ["VM0100", "VM1", "VM", "server"] := by
    rw [Inventory.groupHosts, if_pos (Table.contains_iff.mpr ⟨_, hservers⟩)]
    simp [Inventory.gather_group hservers, Inventory.gather_group hrack, Inventory.gather,
      Inventory.appendNew]
  have hfirst : firstHost? inv "servers" = some "VM0100" := by
    rw [firstHost?, hhosts]
    rfl
  have hserver : testServer? inv "servers" = some "VM" := by
    rw [testServer?, hhosts]
    decide
  have hmachine := firstHost?_eq_some_iff.mp hfirst
  have hother := testServer?_eq_some_iff.mp hserver
  have hincludes := includes_of_firstOf hother
  obtain ⟨-, -, -, hname, -⟩ := hother
  obtain ⟨-, hgroup, -, hservers⟩ := group_answered_for_first loaded "servers"
  obtain ⟨host, visible, hhost, -, hvisible, hhostname⟩ :=
    hgroup ⟨_, includes_of_firstOf hmachine⟩
  obtain ⟨host', -, visible', hhost', -, -, -, hvisible', hhostname'⟩ :=
    hservers ⟨_, hincludes, hname⟩
  rw [← firstHost?_eq_some_iff, hfirst, Option.some.injEq] at hhost
  rw [← testServer?_eq_some_iff, hserver, Option.some.injEq] at hhost'
  subst hhost hhost'
  exact ⟨loaded, ⟨visible, hvisible, hhostname⟩, visible', hvisible', hhostname'⟩

end Testbed.Facts
