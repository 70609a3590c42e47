import Mathlib.Data.List.Induction
import Testbed.Proofs.Inventory.Merge

/-!
# The closed form of a loaded inventory

What is loaded can be read off the files.  A group lists the hosts and the children that the files
list for it, in their order and each at its first place, and a variable of a group or of a host has
the value that the last file gives it.  A host is known if a file lists it in a group or has
variables for it.  Of several members of one name inside a file the last one counts; that is settled
when the file is read.
-/

namespace Testbed.Inventory

/-- A group as a file has it; a group that the file does not have is empty. -/
def File.groupOf (file : File) (name : String) : Group := (file.groups.get? name).getD {}

/-- The variables that a file has for a host. -/
def File.varsOf (file : File) (host : String) : Json.Vars := (file.hostVars.get? host).getD ∅

/-- A group of an inventory; one that does not exist is empty. -/
def groupOf (inv : Inventory) (name : String) : Group := (inv.groups.get? name).getD {}

/-- The variables of a host; one that is not known has none. -/
def varsOf (inv : Inventory) (host : String) : Json.Vars := (inv.hosts.get? host).getD ∅

/-- The value that the last file gives, of those that give one. -/
def lastValue (files : List File) (value? : File → Option Json) : Option Json :=
  files.reverse.findSome? value?

/-- What is loaded from these paths if their files say this. -/
structure ClosedForm (paths : List Path) (files : List File) (inv : Inventory) : Prop where
  sources : inv.sources = paths
  groups : ∀ name, inv.groups.contains name = true ↔
    ∃ file ∈ files, file.groups.contains name = true
  members : ∀ group, (inv.groupOf group).hosts =
    (files.flatMap fun file => (file.groupOf group).hosts).eraseDups
  children : ∀ group, (inv.groupOf group).children =
    (files.flatMap fun file => (file.groupOf group).children).eraseDups
  groupVars : ∀ group name, (inv.groupOf group).vars.get? name =
    lastValue files fun file => (file.groupOf group).vars.get? name
  hosts : ∀ host, inv.hosts.contains host = true ↔
    ∃ file ∈ files, (∃ group, host ∈ (file.groupOf group).hosts) ∨
      file.hostVars.contains host = true
  hostVars : ∀ host name, (inv.varsOf host).get? name =
    lastValue files fun file => (file.varsOf host).get? name

variable {t : FileTree} {paths : List Path} {files : List File} {inv : Inventory} {file : File}

/-! ## Merging one more file -/

theorem lastValue_append (files : List File) (file : File) (value? : File → Option Json) :
    lastValue (files ++ [file]) value? = (value? file).or (lastValue files value?) := by
  rw [lastValue, List.reverse_append, List.findSome?_append]
  simp [lastValue]

theorem groupOf_mergeFile (inv : Inventory) (file : File) (name : String) :
    (inv.mergeFile file).groupOf name = (inv.groupOf name).merge (file.groupOf name) := by
  rw [groupOf, get?_groups_mergeFile, File.groupOf]
  rcases file.groups.get? name with - | g
  · rfl
  · rfl

theorem contains_groups_mergeFile {name : String} :
    (inv.mergeFile file).groups.contains name = true ↔
      inv.groups.contains name = true ∨ file.groups.contains name = true := by
  simp only [Table.contains_iff, ← Option.isSome_iff_exists, get?_groups_mergeFile]
  rcases file.groups.get? name with - | g
  · simp
  · simp

theorem varsOf_mergeFile (inv : Inventory) (file : File) (host : String) :
    (inv.mergeFile file).varsOf host = (inv.varsOf host).merge (file.varsOf host) := by
  rw [varsOf, get?_hosts_mergeFile, File.varsOf]
  rcases file.hostVars.get? host with - | vars
  · rw [Option.map_none, Option.none_or]
    split
    case isTrue => rfl
    case isFalse => rfl
  · rfl

theorem File.mem_listed_iff {host : String} :
    host ∈ file.listed ↔ ∃ group, host ∈ (file.groupOf group).hosts := by
  rw [mem_listed]
  constructor
  · rintro ⟨group, g, hg, hhost⟩
    refine ⟨group, ?_⟩
    rwa [groupOf, hg]
  · rintro ⟨group, hhost⟩
    rw [groupOf] at hhost
    rcases hg : file.groups.get? group with - | g
    · simp [hg] at hhost
    · exact ⟨group, g, hg, by simpa [hg] using hhost⟩

theorem contains_hosts_mergeFile {host : String} :
    (inv.mergeFile file).hosts.contains host = true ↔
      inv.hosts.contains host = true ∨ (∃ group, host ∈ (file.groupOf group).hosts) ∨
        file.hostVars.contains host = true := by
  rw [← File.mem_listed_iff]
  simp only [Table.contains_iff, ← Option.isSome_iff_exists, get?_hosts_mergeFile]
  rcases file.hostVars.get? host with - | vars
  · by_cases hlisted : host ∈ file.listed
    · simp [hlisted]
    · simp [hlisted]
  · simp

theorem ClosedForm.merge (h : ClosedForm paths files inv) (paths' : List Path) (file : File) :
    ClosedForm paths' (files ++ [file]) { inv.mergeFile file with sources := paths' } where
  sources := rfl
  groups := by
    intro name
    simp only [List.mem_append, List.mem_singleton, or_and_right, exists_or, exists_eq_left]
    rw [← h.groups]
    exact contains_groups_mergeFile
  members := by
    intro group
    have hmerge := congrArg Group.hosts (groupOf_mergeFile inv file group)
    rw [List.flatMap_append, List.flatMap_singleton, ← appendNew_eraseDups, ← h.members]
    exact hmerge
  children := by
    intro group
    have hmerge := congrArg Group.children (groupOf_mergeFile inv file group)
    rw [List.flatMap_append, List.flatMap_singleton, ← appendNew_eraseDups, ← h.children]
    exact hmerge
  groupVars := by
    intro group name
    have hmerge := congrArg Group.vars (groupOf_mergeFile inv file group)
    rw [lastValue_append, ← h.groupVars, ← Table.get?_merge]
    exact congrArg (Table.get? · name) hmerge
  hosts := by
    intro host
    simp only [List.mem_append, List.mem_singleton, or_and_right, exists_or, exists_eq_left]
    rw [← h.hosts]
    exact contains_hosts_mergeFile
  hostVars := by
    intro host name
    rw [lastValue_append, ← h.hostVars, ← Table.get?_merge]
    exact congrArg (Table.get? · name) (varsOf_mergeFile inv file host)

theorem closedForm_foldl (paths : List Path) (files : List File) :
    ClosedForm paths files { files.foldl mergeFile {} with sources := paths } := by
  induction files using List.reverseRecOn with
  | nil =>
      constructor
      · rfl
      all_goals simp [groupOf, varsOf, lastValue, Table.contains]
  | append_singleton front last ih =>
      have hmerge := ih.merge paths last
      rw [mergeFile_sources] at hmerge
      rw [List.foldl_append]
      exact hmerge

/-! ## Nothing else has the closed form -/

theorem ClosedForm.unique {inv' : Inventory} (h : ClosedForm paths files inv)
    (h' : ClosedForm paths files inv') : inv = inv' := by
  have hgroup : ∀ name, inv.groupOf name = inv'.groupOf name := by
    intro name
    have hvars : (inv.groupOf name).vars = (inv'.groupOf name).vars :=
      Table.ext_get? fun key => (h.groupVars name key).trans (h'.groupVars name key).symm
    have hhosts := (h.members name).trans (h'.members name).symm
    have hchildren := (h.children name).trans (h'.children name).symm
    generalize inv.groupOf name = g at hvars hhosts hchildren ⊢
    generalize inv'.groupOf name = g' at hvars hhosts hchildren ⊢
    obtain ⟨_, _, _⟩ := g
    obtain ⟨_, _, _⟩ := g'
    congr
  have hgroups : inv.groups = inv'.groups :=
    Table.ext_getD {} (fun name => (h.groups name).trans (h'.groups name).symm) hgroup
  have hhosts : inv.hosts = inv'.hosts := by
    apply Table.ext_getD ∅ fun host => (h.hosts host).trans (h'.hosts host).symm
    intro host
    exact Table.ext_get? fun key => (h.hostVars host key).trans (h'.hostVars host key).symm
  have hsources := h.sources.trans h'.sources.symm
  obtain ⟨_, _, _⟩ := inv
  obtain ⟨_, _, _⟩ := inv'
  congr

/-! ## Loading -/

/-- Files that can all be read are loaded, and what is loaded is the one inventory of their closed
form.  Otherwise loading fails as the first file does that cannot be read. -/
theorem load_closedForm (t : FileTree) (paths : List Path) :
    (∀ files, Reads t paths files →
      (∃ inv, load t paths = .ok inv) ∧
        ∀ inv, load t paths = .ok inv ↔ ClosedForm paths files inv) ∧
    ∀ e, load t paths = .error e ↔
      ∃ front path rest, paths = front ++ path :: rest ∧
        (∀ earlier ∈ front, ∃ file, readFile t earlier = .ok file) ∧
        readFile t path = .error e := by
  refine ⟨?_, fun _ => load_error⟩
  intro files hreads
  have hload := load_ok.mpr ⟨files, hreads, rfl⟩
  have hform := closedForm_foldl paths files
  refine ⟨⟨_, hload⟩, ?_⟩
  intro inv
  constructor
  · intro h
    rw [hload] at h
    cases h
    exact hform
  · intro h
    rw [hload, hform.unique h]

/-- Two files differ in a variable of a group and of a host, and list hosts more than once. -/
theorem load_closedForm_conflict :
    let earlier := "\x7b\"_meta\":\x7b\"hostvars\":\x7b\"a\":\x7b\"k\":1,\"m\":1\x7d\x7d\x7d,"
      ++ "\"g\":\x7b\"hosts\":[\"b\",\"a\",\"b\"],\"vars\":\x7b\"v\":1\x7d\x7d\x7d"
    let later := "\x7b\"_meta\":\x7b\"hostvars\":\x7b\"a\":\x7b\"k\":2\x7d\x7d\x7d,"
      ++ "\"g\":\x7b\"hosts\":[\"c\",\"a\"],\"vars\":\x7b\"v\":2\x7d\x7d\x7d"
    let t : FileTree :=
      { nodes := [(["i"], .file (Text.Utf8.encode earlier)),
          (["j"], .file (Text.Utf8.encode later))] }
    let i := (readFile t "i").toOption.getD {}
    let j := (readFile t "j").toOption.getD {}
    Reads t ["i", "j"] [i, j] ∧
      ∃ inv, load t ["i", "j"] = .ok inv ∧ inv.sources = ["i", "j"] ∧
        (inv.groupOf "g").hosts = ["b", "a", "c"] ∧
        ((inv.groupOf "g").vars.get? "v").map Json.compact = some "2" ∧
        ((inv.varsOf "a").get? "k").map Json.compact = some "2" ∧
        ((inv.varsOf "a").get? "m").map Json.compact = some "1" ∧
        inv.hosts.contains "c" = true := by
  intro earlier later t i j
  have hi : readFile t "i" = .ok i := Except.eq_ok_of_isOk _ (by decide +kernel)
  have hj : readFile t "j" = .ok j := Except.eq_ok_of_isOk _ (by decide +kernel)
  have hreads : Reads t ["i", "j"] [i, j] := .cons hi (.cons hj .nil)
  obtain ⟨⟨inv, hload⟩, hform⟩ := (load_closedForm t ["i", "j"]).1 [i, j] hreads
  have form := (hform inv).mp hload
  refine ⟨hreads, inv, hload, form.sources, ?_, ?_, ?_, ?_, ?_⟩
  · rw [form.members]
    decide +kernel
  · rw [form.groupVars]
    decide +kernel
  · rw [form.hostVars]
    decide +kernel
  · rw [form.hostVars]
    decide +kernel
  · refine (form.hosts "c").mpr ⟨j, by simp, Or.inl ⟨"g", ?_⟩⟩
    decide +kernel

end Testbed.Inventory
