import Mathlib.Data.List.Forall2
import Testbed.Inventory.Load
import Testbed.Proofs.Table

/-!
# Merging files

Loading reads all files and then merges them in order, so what is loaded can be told from what the
files say.  A file is merged group by group and host by host; the laws below say what that makes of
one group and of one host.
-/

/-- A result that is no error is the value that it has. -/
theorem Except.eq_ok_of_isOk {ε : Type*} {α : Type*} (result : Except ε α) {otherwise : α}
    (ok : result.isOk = true) : result = .ok (result.toOption.getD otherwise) := by
  cases result with
  | error e => cases ok
  | ok value => rfl

namespace Testbed.Inventory

variable {t : FileTree} {inv : Inventory} {file : File}

/-! ## One file -/

/-- Appending to what is left of a list without repetitions leaves what is left of both lists. -/
theorem appendNew_eraseDups (names new : List String) :
    appendNew names.eraseDups new = (names ++ new).eraseDups := by
  rw [appendNew]
  induction new generalizing names with
  | nil => rw [List.append_nil, List.foldl_nil]
  | cons name rest ih =>
      have hstep : (if names.eraseDups.contains name then names.eraseDups
          else names.eraseDups ++ [name]) = (names ++ [name]).eraseDups := by
        rw [List.eraseDups_append, List.cons_removeAll]
        by_cases hname : name ∈ names
        · simp [hname]
        · simp [hname, List.eraseDups_cons]
      rw [List.foldl_cons, hstep, ih, List.append_assoc]
      rfl

theorem get?_register (hosts : Table Json.Vars) (names : List String) (host : String) :
    (register hosts names).get? host =
      if host ∈ names then some ((hosts.get? host).getD ∅) else hosts.get? host := by
  rw [register]
  induction names generalizing hosts with
  | nil => simp
  | cons name rest ih =>
      rw [List.foldl_cons, ih, Table.get?_alter]
      by_cases hname : host = name
      · subst hname
        simp
      · simp [hname]

/-- The groups of a file are merged one by one, and all hosts that they list are made known. -/
theorem foldl_mergeGroup (inv : Inventory) (entries : List (String × Group)) :
    entries.foldl (fun inv entry => inv.mergeGroup entry.1 entry.2) inv =
      { inv with
        hosts := register inv.hosts (entries.flatMap (·.2.hosts))
        groups := entries.foldl (fun groups entry => groups.alter entry.1 {} (·.merge entry.2))
          inv.groups } := by
  induction entries generalizing inv with
  | nil => rfl
  | cons entry rest ih =>
      have hregister : register (register inv.hosts entry.2.hosts) (rest.flatMap (·.2.hosts)) =
          register inv.hosts ((entry :: rest).flatMap (·.2.hosts)) := by
        rw [List.flatMap_cons, register, register, register, List.foldl_append]
      rw [List.foldl_cons, ih, ← hregister]
      rfl

theorem foldl_mergeHost (inv : Inventory) (entries : List (String × Json.Vars)) :
    entries.foldl (fun inv entry => inv.mergeHost entry.1 entry.2) inv =
      { inv with
        hosts := entries.foldl (fun hosts entry => hosts.alter entry.1 ∅ (·.merge entry.2))
          inv.hosts } := by
  induction entries generalizing inv with
  | nil => rfl
  | cons entry rest ih =>
      rw [List.foldl_cons, ih]
      rfl

/-- The hosts that groups list in a file. -/
def File.listed (file : File) : List String := file.groups.entries.flatMap (·.2.hosts)

theorem File.mem_listed {host : String} :
    host ∈ file.listed ↔ ∃ name g, file.groups.get? name = some g ∧ host ∈ g.hosts := by
  rw [listed, List.mem_flatMap]
  constructor
  · rintro ⟨⟨name, g⟩, hentry, hhost⟩
    exact ⟨name, g, Table.mem_entries.mp hentry, hhost⟩
  · rintro ⟨name, g, hg, hhost⟩
    exact ⟨(name, g), Table.mem_entries.mpr hg, hhost⟩

theorem sources_mergeFile (inv : Inventory) (file : File) :
    (inv.mergeFile file).sources = inv.sources := by
  rw [mergeFile, foldl_mergeGroup, foldl_mergeHost]

/-- The list of sources has no part in merging. -/
theorem mergeFile_sources (inv : Inventory) (sources : List Path) (file : File) :
    mergeFile { inv with sources } file = { inv.mergeFile file with sources } := by
  simp only [mergeFile, foldl_mergeGroup, foldl_mergeHost]

theorem get?_groups_mergeFile (inv : Inventory) (file : File) (name : String) :
    (inv.mergeFile file).groups.get? name =
      ((file.groups.get? name).map ((inv.groups.get? name).getD {}).merge).or
        (inv.groups.get? name) := by
  simp only [mergeFile, foldl_mergeGroup, foldl_mergeHost]
  exact Table.get?_alterAll file.groups {} Group.merge inv.groups name

theorem get?_hosts_mergeFile (inv : Inventory) (file : File) (host : String) :
    (inv.mergeFile file).hosts.get? host =
      ((file.hostVars.get? host).map ((inv.hosts.get? host).getD ∅).merge).or
        (if host ∈ file.listed then some ((inv.hosts.get? host).getD ∅)
          else inv.hosts.get? host) := by
  have hown : ((register inv.hosts file.listed).get? host).getD ∅ =
      (inv.hosts.get? host).getD ∅ := by
    rw [get?_register]
    split
    case isTrue => rfl
    case isFalse => rfl
  simp only [mergeFile, foldl_mergeGroup, foldl_mergeHost]
  rw [← get?_register, ← hown]
  exact Table.get?_alterAll file.hostVars ∅ Table.merge _ host

/-- What the groups and the hosts of a file preserve is preserved by the file. -/
theorem mergeFile_preserves {P : Inventory → Prop}
    (hgroup : ∀ inv name g, P inv → file.groups.get? name = some g → P (inv.mergeGroup name g))
    (hhost : ∀ inv name vars, P inv → file.hostVars.get? name = some vars →
      P (inv.mergeHost name vars))
    (h : P inv) : P (inv.mergeFile file) := by
  have hgroups : P (file.groups.entries.foldl (fun inv entry => inv.mergeGroup entry.1 entry.2)
      inv) := by
    apply List.foldlRecOn _ _ h
    intro earlier hearlier entry hentry
    exact hgroup earlier entry.1 entry.2 hearlier (Table.mem_entries.mp hentry)
  apply List.foldlRecOn _ _ hgroups
  intro earlier hearlier entry hentry
  exact hhost earlier entry.1 entry.2 hearlier (Table.mem_entries.mp hentry)

/-! ## All files -/

/-- The files of these paths can be read, and say this. -/
def Reads (t : FileTree) (paths : List Path) (files : List File) : Prop :=
  List.Forall₂ (fun path file => readFile t path = .ok file) paths files

theorem addFile_ok {path : Path} {inv' : Inventory} :
    addFile t inv path = .ok inv' ↔ ∃ file, readFile t path = .ok file ∧
      inv' = { inv.mergeFile file with sources := inv.sources ++ [path] } := by
  rw [addFile]
  rcases readFile t path with e | file
  · simp [Except.map]
  · simp [Except.map, sources_mergeFile, eq_comm]

theorem foldl_mergeFile_sources (inv : Inventory) (sources : List Path) (files : List File) :
    files.foldl mergeFile { inv with sources } = { files.foldl mergeFile inv with sources } := by
  induction files generalizing inv with
  | nil => rfl
  | cons file rest ih => rw [List.foldl_cons, List.foldl_cons, mergeFile_sources, ih]

theorem loadFrom_ok {inv' : Inventory} {paths : List Path} :
    loadFrom t inv paths = .ok inv' ↔
      ∃ files, Reads t paths files ∧
        inv' = { files.foldl mergeFile inv with sources := inv.sources ++ paths } := by
  induction paths generalizing inv with
  | nil => simp [loadFrom, Reads, eq_comm]
  | cons path rest ih =>
      -- Merging the rest adds its paths to those of the first file.
      have hmerge : ∀ file files,
          { files.foldl mergeFile { inv.mergeFile file with sources := inv.sources ++ [path] } with
            sources := inv.sources ++ [path] ++ rest } =
          ({ (file :: files).foldl mergeFile inv with sources := inv.sources ++ path :: rest } :
            Inventory) := by
        intro file files
        rw [foldl_mergeFile_sources, List.append_assoc]
        rfl
      constructor
      · intro h
        rw [loadFrom] at h
        split at h
        case h_1 next hadd =>
            obtain ⟨file, hread, rfl⟩ := addFile_ok.mp hadd
            obtain ⟨files, hfiles, rfl⟩ := ih.mp h
            exact ⟨file :: files, .cons hread hfiles, hmerge file files⟩
        case h_2 => cases h
      · rintro ⟨_, hreads, rfl⟩
        obtain ⟨file, files, hread, hfiles, rfl⟩ := List.forall₂_cons_left_iff.mp hreads
        rw [loadFrom, addFile_ok.mpr ⟨file, hread, rfl⟩]
        exact ih.mpr ⟨files, hfiles, (hmerge file files).symm⟩

/-- Loading reads all files, and merges what they say. -/
theorem load_ok {paths : List Path} :
    load t paths = .ok inv ↔
      ∃ files, Reads t paths files ∧ inv = { files.foldl mergeFile {} with sources := paths } :=
  loadFrom_ok

/-- What every file preserves holds of what is loaded. -/
theorem load_preserves {P : Inventory → Prop} {paths : List Path} (empty : P {})
    (hsources : ∀ inv sources, P inv → P { inv with sources })
    (hmerge : ∀ path ∈ paths, ∀ inv file, readFile t path = .ok file → P inv →
      P (inv.mergeFile file))
    (h : load t paths = .ok inv) : P inv := by
  obtain ⟨files, hreads, rfl⟩ := load_ok.mp h
  apply hsources
  generalize ({} : Inventory) = start at empty
  clear h
  induction hreads generalizing start with
  | nil => exact empty
  | cons hread _ ih =>
      apply ih fun path hpath => hmerge path (List.mem_cons_of_mem _ hpath)
      exact hmerge _ List.mem_cons_self start _ hread empty

/-- Loading fails as the first file does that cannot be read. -/
theorem load_error {paths : List Path} {e : LoadError} :
    load t paths = .error e ↔
      ∃ front path rest, paths = front ++ path :: rest ∧
        (∀ earlier ∈ front, ∃ file, readFile t earlier = .ok file) ∧
        readFile t path = .error e := by
  have hfrom : ∀ inv, loadFrom t inv paths = .error e ↔
      ∃ front path rest, paths = front ++ path :: rest ∧
        (∀ earlier ∈ front, ∃ file, readFile t earlier = .ok file) ∧
        readFile t path = .error e := by
    induction paths with
    | nil => simp [loadFrom]
    | cons path rest ih =>
        intro inv
        rcases hread : readFile t path with cause | file
        · have hadd : addFile t inv path = .error cause := by rw [addFile, hread]; rfl
          rw [loadFrom, hadd]
          constructor
          · intro h
            cases h
            exact ⟨[], path, rest, rfl, by simp, hread⟩
          · rintro ⟨front, failed, others, hpaths, hfront, hfailed⟩
            rcases front with - | ⟨first, front⟩
            · cases hpaths
              rw [hread] at hfailed
              cases hfailed
              rfl
            · cases hpaths
              obtain ⟨file, hfile⟩ := hfront path List.mem_cons_self
              rw [hread] at hfile
              cases hfile
        · rw [loadFrom, addFile_ok.mpr ⟨file, hread, rfl⟩]
          dsimp only
          rw [ih]
          constructor
          · rintro ⟨front, failed, others, rfl, hfront, hfailed⟩
            refine ⟨path :: front, failed, others, rfl, ?_, hfailed⟩
            exact List.forall_mem_cons.mpr ⟨⟨file, hread⟩, hfront⟩
          · rintro ⟨front, failed, others, hpaths, hfront, hfailed⟩
            rcases front with - | ⟨first, front⟩
            · cases hpaths
              rw [hread] at hfailed
              cases hfailed
            · cases hpaths
              exact ⟨front, failed, others, rfl, (List.forall_mem_cons.mp hfront).2, hfailed⟩
  exact hfrom {}

end Testbed.Inventory
