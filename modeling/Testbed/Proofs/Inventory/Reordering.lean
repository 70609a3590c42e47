import Mathlib.Data.List.Perm.Basic
import Mathlib.Data.List.Sort
import Testbed.Inventory.Visible
import Testbed.Proofs.Inventory.ClosedForm
import Testbed.Proofs.Inventory.Links
import Testbed.Proofs.Inventory.Value

/-!
# Files in another order

Files that do not contradict each other may be loaded in any order.  The lists of hosts and children
come out in the order of the files, and nothing else does: the walks through the hierarchy depend
on which names a list has and not on their order, because the groups they start from and lead to
are always taken in ascending order.
-/

namespace Testbed.Inventory

/-- Two inventories differ at most in the order in which groups list their hosts and children. -/
structure Alike (inv inv' : Inventory) : Prop where
  hosts : inv.hosts = inv'.hosts
  groups : ∀ name, inv.groups.contains name = true ↔ inv'.groups.contains name = true
  members : ∀ group host, host ∈ (inv.groupOf group).hosts ↔ host ∈ (inv'.groupOf group).hosts
  children : ∀ group child,
    child ∈ (inv.groupOf group).children ↔ child ∈ (inv'.groupOf group).children
  groupVars : ∀ group, (inv.groupOf group).vars = (inv'.groupOf group).vars

variable {inv inv' : Inventory}

/-! ## What the lists of a group tell -/

theorem mem_parents_iff {parent child : String} :
    parent ∈ parents inv.groups child ↔ child ∈ (inv.groupOf parent).children := by
  rw [mem_parents, groupOf]
  rcases inv.groups.get? parent with - | g
  · simp
  · simp

theorem lists_iff {group host : String} :
    Lists inv.groups group host ↔ host ∈ (inv.groupOf group).hosts := by
  rw [Lists, groupOf]
  rcases inv.groups.get? group with - | g
  · simp
  · simp

theorem link_iff {parent child : String} :
    Link inv.groups parent child ↔
      inv.groups.contains child = true ∧ child ∈ (inv.groupOf parent).children := by
  rw [Link, ← mem_parents, mem_parents_iff]

theorem groupVars_eq (inv : Inventory) (group : String) :
    inv.groupVars group = (inv.groupOf group).vars := by
  rw [Inventory.groupVars, groupOf]
  rcases inv.groups.get? group with - | g
  · rfl
  · rfl

/-! ## The walks do not see the order -/

theorem parents_ascending (groups : Table Group) (name : String) :
    (parents groups name).Pairwise (· < ·) :=
  Table.names_ascending _

/-- The depth depends on the parents of each group, and on the groups only by their number. -/
theorem depthFrom_congr {groups groups' : Table Group}
    (h : ∀ name, parents groups name = parents groups' name) (fuel : Nat) :
    depthFrom groups fuel = depthFrom groups' fuel := by
  induction fuel with
  | zero => rfl
  | succ fuel ih =>
      funext name visiting
      simp only [depthFrom, h, ih]

namespace Alike

theorem names (h : inv.Alike inv') : inv.groups.names = inv'.groups.names := by
  apply (Table.names_ascending _).eq_of_mem_iff (Table.names_ascending _)
  intro name
  rw [Table.mem_names, Table.mem_names]
  exact h.groups name

theorem parents (h : inv.Alike inv') (name : String) :
    parents inv.groups name = parents inv'.groups name := by
  apply (parents_ascending _ _).eq_of_mem_iff (parents_ascending _ _)
  intro parent
  rw [mem_parents_iff, mem_parents_iff]
  exact h.children parent name

theorem depth (h : inv.Alike inv') (name : String) :
    depth inv.groups name = depth inv'.groups name := by
  have hlength : inv.groups.entries.length = inv'.groups.entries.length := by
    have hnames := congrArg List.length h.names
    rwa [Table.names, Table.names, List.length_map, List.length_map] at hnames
  rw [Inventory.depth, Inventory.depth, hlength, depthFrom_congr h.parents]

theorem includes_iff (h : inv.Alike inv') {group host : String} :
    Includes inv.groups group host ↔ Includes inv'.groups group host := by
  have hlink : Link inv.groups = Link inv'.groups := by
    funext parent child
    rw [link_iff, link_iff, h.groups, h.children]
  simp only [Includes, hlink, lists_iff, h.members]

theorem hostGroups (h : inv.Alike inv') (host : String) :
    inv.hostGroups host = inv'.hostGroups host := by
  apply (hostGroups_ascending _ _).eq_of_mem_iff (hostGroups_ascending _ _)
  intro group
  rw [mem_hostGroups, mem_hostGroups]
  exact h.includes_iff

theorem visibleVars (h : inv.Alike inv') (host : String) :
    inv.visibleVars host = inv'.visibleVars host := by
  simp only [Inventory.visibleVars, layers, groupVars_eq, h.hosts, h.hostGroups, h.depth,
    h.groupVars]

theorem groupHosts (h : inv.Alike inv') (group : String) :
    Option.Rel List.Perm (inv.groupHosts group) (inv'.groupHosts group) := by
  rw [Inventory.groupHosts, Inventory.groupHosts]
  by_cases hgroup : inv.groups.contains group = true
  · rw [if_pos hgroup, if_pos ((h.groups group).mp hgroup)]
    apply Option.Rel.some
    rw [List.perm_ext_iff_of_nodup (nodup_gather List.nodup_nil) (nodup_gather List.nodup_nil)]
    intro host
    rw [mem_gather_self, mem_gather_self]
    exact h.includes_iff
  · rw [if_neg hgroup, if_neg (mt (h.groups group).mpr hgroup)]
    exact .none

end Alike

/-! ## Files that do not contradict each other -/

/-- No variable of a group or of a host has one value in a file and a different one in another. -/
structure Compatible (file file' : File) : Prop where
  groups : ∀ group name value value', (file.groupOf group).vars.get? name = some value →
    (file'.groupOf group).vars.get? name = some value' → value = value'
  hosts : ∀ host name value value', (file.varsOf host).get? name = some value →
    (file'.varsOf host).get? name = some value' → value = value'

theorem File.Holds.groupOf {P : Json → Prop} {file : File} (h : file.Holds P) (group : String) :
    (file.groupOf group).vars.Holds P := by
  rw [File.groupOf]
  rcases hg : file.groups.get? group with - | g
  · exact Table.holds_empty
  · exact h.groups group g hg

theorem File.Holds.varsOf {P : Json → Prop} {file : File} (h : file.Holds P) (host : String) :
    (file.varsOf host).Holds P := by
  rw [File.varsOf]
  rcases hvars : file.hostVars.get? host with - | vars
  · exact Table.holds_empty
  · exact h.hostVars host vars hvars

/-- Files that give the same value to all variables do not contradict each other. -/
theorem compatible_of_holds {P : Json → Prop} {only : Json} {file file' : File}
    (single : ∀ value, P value → value = only) (h : file.Holds P) (h' : file'.Holds P) :
    Compatible file file' where
  groups := by
    intro group name value value' hvalue hvalue'
    rw [single value (h.groupOf group name value hvalue),
      single value' (h'.groupOf group name value' hvalue')]
  hosts := by
    intro host name value value' hvalue hvalue'
    rw [single value (h.varsOf host name value hvalue),
      single value' (h'.varsOf host name value' hvalue')]

/-- If no two files give different values, the last value is any value that a file gives. -/
theorem lastValue_eq_some_iff {files : List File} {value? : File → Option Json}
    (agree : ∀ file ∈ files, ∀ file' ∈ files, ∀ value value', value? file = some value →
      value? file' = some value' → value = value') {value : Json} :
    lastValue files value? = some value ↔ ∃ file ∈ files, value? file = some value := by
  have hfound : ∀ found, lastValue files value? = some found →
      ∃ file ∈ files, value? file = some found := by
    intro found h
    obtain ⟨file, hfile, hvalue⟩ := List.exists_of_findSome?_eq_some h
    exact ⟨file, List.mem_reverse.mp hfile, hvalue⟩
  refine ⟨hfound value, ?_⟩
  rintro ⟨file, hfile, hvalue⟩
  have hsome : (lastValue files value?).isSome = true := by
    rw [lastValue, List.findSome?_isSome_iff]
    exact ⟨file, List.mem_reverse.mpr hfile, by rw [hvalue, Option.isSome_some]⟩
  obtain ⟨found, hlast⟩ := Option.isSome_iff_exists.mp hsome
  obtain ⟨file', hfile', hvalue'⟩ := hfound found hlast
  rw [hlast, agree file hfile file' hfile' value found hvalue hvalue']

theorem lastValue_perm {files files' : List File} (reordered : files.Perm files')
    {value? : File → Option Json}
    (agree : ∀ file ∈ files, ∀ file' ∈ files, ∀ value value', value? file = some value →
      value? file' = some value' → value = value') :
    lastValue files value? = lastValue files' value? := by
  have agree' : ∀ file ∈ files', ∀ file' ∈ files', ∀ value value', value? file = some value →
      value? file' = some value' → value = value' := by
    intro file hfile file' hfile'
    exact agree file (reordered.mem_iff.mpr hfile) file' (reordered.mem_iff.mpr hfile')
  ext value
  simp only [lastValue_eq_some_iff agree, lastValue_eq_some_iff agree', reordered.mem_iff]

/-- What is loaded from files in two orders differs in the order of lists only. -/
theorem ClosedForm.alike {paths paths' : List Path} {files files' : List File}
    (h : ClosedForm paths files inv) (h' : ClosedForm paths' files' inv')
    (reordered : files.Perm files')
    (compatible : ∀ file ∈ files, ∀ file' ∈ files, Compatible file file') : inv.Alike inv' where
  hosts := by
    apply Table.ext_getD ∅
    · intro host
      rw [h.hosts, h'.hosts]
      simp only [reordered.mem_iff]
    · intro host
      apply Table.ext_get?
      intro name
      refine ((h.hostVars host name).trans ?_).trans (h'.hostVars host name).symm
      apply lastValue_perm reordered
      intro file hfile file' hfile'
      exact (compatible file hfile file' hfile').hosts host name
  groups := by
    intro name
    rw [h.groups, h'.groups]
    simp only [reordered.mem_iff]
  members := by
    intro group host
    rw [h.members, h'.members]
    simp only [List.mem_eraseDups, List.mem_flatMap, reordered.mem_iff]
  children := by
    intro group child
    rw [h.children, h'.children]
    simp only [List.mem_eraseDups, List.mem_flatMap, reordered.mem_iff]
  groupVars := by
    intro group
    apply Table.ext_get?
    intro name
    rw [h.groupVars, h'.groupVars]
    apply lastValue_perm reordered
    intro file hfile file' hfile'
    exact (compatible file hfile file' hfile').groups group name

/-! ## Loading in another order -/

theorem closedForm_of_load {t : FileTree} {paths : List Path} {files : List File}
    (reads : Reads t paths files) (loaded : load t paths = .ok inv) :
    ClosedForm paths files inv := by
  rw [load_ok.mpr ⟨files, reads, rfl⟩] at loaded
  cases loaded
  exact closedForm_foldl paths files

/-- Files of which no two contradict each other can be loaded in any order.  The same hosts and
groups exist, each host has and sees the same variables, and each group has the same hosts, though
perhaps in another order. -/
theorem load_reordered {t : FileTree} {paths paths' : List Path} {files : List File}
    (reads : Reads t paths files) (reordered : paths'.Perm paths)
    (compatible : ∀ file ∈ files, ∀ file' ∈ files, Compatible file file') :
    ∃ inv inv', load t paths = .ok inv ∧ load t paths' = .ok inv' ∧
      (∀ host, inv.hostVars host = inv'.hostVars host ∧
        inv.visibleVars host = inv'.visibleVars host) ∧
      (∀ group, inv.groups.contains group = inv'.groups.contains group) ∧
      ∀ group, Option.Rel List.Perm (inv.groupHosts group) (inv'.groupHosts group) := by
  obtain ⟨files', reads', reordered'⟩ := List.perm_comp_forall₂ reordered reads
  have alike := (closedForm_foldl paths files).alike (closedForm_foldl paths' files')
    reordered'.symm compatible
  refine ⟨_, _, load_ok.mpr ⟨files, reads, rfl⟩, load_ok.mpr ⟨files', reads', rfl⟩, ?_, ?_, ?_⟩
  · intro host
    exact ⟨congrArg (Table.get? · host) alike.hosts, alike.visibleVars host⟩
  · intro group
    exact Bool.eq_iff_iff.mpr (alike.groups group)
  · exact alike.groupHosts

/-- Two files that list the hosts of a group in different orders and share its variable. -/
theorem load_reordered_shared :
    let earlier := "\x7b\"_meta\":\x7b\"hostvars\":\x7b\"a\":\x7b\"k\":true\x7d\x7d\x7d,"
      ++ "\"g\":\x7b\"hosts\":[\"b\",\"a\"],\"vars\":\x7b\"v\":true\x7d\x7d\x7d"
    let later := "\x7b\"g\":\x7b\"hosts\":[\"c\",\"a\"],\"vars\":\x7b\"v\":true\x7d\x7d,"
      ++ "\"top\":\x7b\"children\":[\"g\"]\x7d\x7d"
    let t : FileTree :=
      { nodes := [(["i"], .file (Text.Utf8.encode earlier)),
          (["j"], .file (Text.Utf8.encode later))] }
    let i := (readFile t "i").toOption.getD {}
    let j := (readFile t "j").toOption.getD {}
    Reads t ["i", "j"] [i, j] ∧
      ∃ inv inv', load t ["i", "j"] = .ok inv ∧ load t ["j", "i"] = .ok inv' ∧
        (inv.groupOf "g").hosts = ["b", "a", "c"] ∧ (inv'.groupOf "g").hosts = ["c", "a", "b"] ∧
        inv.visibleVars "a" = inv'.visibleVars "a" ∧
        Option.Rel List.Perm (inv.groupHosts "top") (inv'.groupHosts "top") := by
  intro earlier later t i j
  have hi : readFile t "i" = .ok i := Except.eq_ok_of_isOk _ (by decide +kernel)
  have hj : readFile t "j" = .ok j := Except.eq_ok_of_isOk _ (by decide +kernel)
  have hreads : Reads t ["i", "j"] [i, j] := .cons hi (.cons hj .nil)
  have hreads' : Reads t ["j", "i"] [j, i] := .cons hj (.cons hi .nil)
  have hholds : ∀ file ∈ [i, j], file.Holds fun value => Json.Decoder.bool value = some true := by
    decide +kernel
  have compatible : ∀ file ∈ [i, j], ∀ file' ∈ [i, j], Compatible file file' := by
    intro file hfile file' hfile'
    refine @compatible_of_holds _ (.bool true) _ _ ?_ (hholds file hfile) (hholds file' hfile')
    intro value hvalue
    cases value <;> cases hvalue
    rfl
  obtain ⟨inv, inv', hload, hload', hvars, -, hhosts⟩ :=
    load_reordered hreads (List.Perm.swap _ _ _) compatible
  refine ⟨hreads, inv, inv', hload, hload', ?_, ?_, (hvars "a").2, hhosts "top"⟩
  · rw [(closedForm_of_load hreads hload).members]
    decide +kernel
  · rw [(closedForm_of_load hreads' hload').members]
    decide +kernel

end Testbed.Inventory
