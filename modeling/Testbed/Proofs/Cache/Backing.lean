import Testbed.Proofs.Cache.Provenance
import Testbed.Proofs.Cache.WriteThrough

/-!
# A cache that can be let go of

With a directory, every change is written through to the files, so what a cache shows of a zone is
also what would be loaded of it.  The directory may be any, and need not be missing at first; but a
zone that has entries in its slot must be within reach of the path, or removing everything might
pass it over.  This is kept by all operations, whether they succeed or fail, so letting go of the
cache changes nothing that is shown.

A directory that is given by the empty path is never found, since nothing is.  When everything is to
be removed, its files are not.
-/

namespace Testbed.Cache

open FileTree (Location)

/-! ## The files -/

/-- These zones would be loaded from a directory, and those with entries are within reach. -/
structure Backing (path : Path) (t : FileTree) (zones : Zones) : Prop where
  nested : t.Nested
  reachable : ∀ zone, (stored t (slot (t.place path) zone)).entries ≠ ∅ →
    t.locate (zonePath path zone) = .ok (slot (t.place path) zone)
  opened : ∀ zone, opened t path zone = zones zone

theorem backing_of_unused {path : Path} {t : FileTree} (nested : t.Nested)
    (unused : Unused path t) : Backing path t (opened t path) :=
  ⟨nested, fun zone h => absurd (unused zone) h, fun _ => rfl⟩

namespace Backing

variable {path : Path} {t t' : FileTree} {zones : Zones} {zone : String}

/-- A zone with entries has a file, and its path leads to it. -/
theorem lookup (h : Backing path t zones) (hne : (zones zone).entries ≠ ∅) :
    ∃ contents, t.lookup (zonePath path zone) = .ok (slot (t.place path) zone, .file contents) := by
  have hstored : zones zone = stored t (slot (t.place path) zone) := by
    rw [← h.opened]
    rcases opened_cases t path zone with hempty | hstored
    · rw [← h.opened, hempty] at hne
      exact absurd rfl hne
    · exact hstored
  rw [hstored] at hne
  by_cases hfile : ∃ contents, t.node? (slot (t.place path) zone) = some (.file contents)
  · obtain ⟨contents, hfile⟩ := hfile
    exact ⟨contents, FileTree.lookup_ok.mpr ⟨h.reachable zone hne, hfile⟩⟩
  · rw [stored_of_no_file fun contents hnode => hfile ⟨contents, hnode⟩] at hne
    exact absurd rfl hne

theorem entries_of_lookup (h : Backing path t zones)
    (hnot : ∀ l contents, t.lookup (zonePath path zone) ≠ .ok (l, .file contents)) :
    (zones zone).entries = ∅ := by
  by_contra hne
  obtain ⟨contents, hlookup⟩ := h.lookup hne
  exact hnot _ contents hlookup

/-- The directory of a zone with entries is found, unless its path is empty. -/
theorem lookup_directory (h : Backing path t zones) (named : path ≠ "")
    (hne : (zones zone).entries ≠ ∅) : t.lookup path = .ok (t.place path, .directory) := by
  obtain ⟨contents, hlookup⟩ := h.lookup hne
  obtain ⟨hlocate, -⟩ := FileTree.lookup_ok.mp hlookup
  obtain ⟨-, hsize, -⟩ := FileTree.locate_ok.mp hlocate
  obtain ⟨hwalk, hdirectory, -⟩ := FileTree.locate_join (FileName.plain_ofZone zone) hlocate
  have hshort := Nat.le_trans (Path.size_le_join path _) hsize
  exact FileTree.lookup_directory_iff.mpr ⟨named, hshort, hwalk, hdirectory⟩

theorem loads (h : Backing path t zones) : Loads path t zones := ⟨h.nested, h.opened⟩

theorem makeDirectories (h : Backing path t zones) :
    Backing path (t.makeDirectories path).1 zones := by
  have hgrows := FileTree.grows_makeDirectories t path
  obtain ⟨hnested, hopened⟩ := h.loads.makeDirectories
  refine ⟨hnested, ?_, hopened⟩
  intro other hne
  rw [FileTree.place_congr hgrows.current, stored_of_grows hgrows] at hne
  rw [FileTree.place_congr hgrows.current]
  exact FileTree.locate_of_directories hgrows.current (fun l => hgrows.keeps l .directory)
    (h.reachable other hne)

/-- Writing the file of a zone changes that zone alone, and does so if all goes well. -/
theorem dump (h : Backing path t zones) (zone : String) (z : Zone) :
    Backing path (dump t (zonePath path zone) z).1
      (match (dump t (zonePath path zone) z).2 with
        | .ok () => zones.set zone z
        | .error _ => zones) := by
  obtain ⟨hspares, hlocate⟩ := spares_dump h.nested path zone z rfl
  have hslot := node?_slot_dump t path zone z rfl
  obtain ⟨hnested, hopened⟩ := h.loads.dump zone z
  refine ⟨hnested, ?_, hopened⟩
  intro other hne
  rw [FileTree.place_congr hspares.current] at hne ⊢
  by_cases hsame : other = zone
  · subst hsame
    rcases hresult : (Cache.dump t (zonePath path other) z).2 with e | ⟨⟩
    · rw [hresult] at hslot
      rw [stored_congr hslot] at hne
      exact hspares.locate (h.reachable other hne)
    · exact hlocate hresult
  · rw [stored_congr (hspares.untouched _ (not_written_slot hsame))] at hne
    exact hspares.locate (h.reachable other hne)

theorem kept (path : Path) : Kept path (Backing path) :=
  ⟨Backing.nested, makeDirectories, fun zone z h => h.dump zone z⟩

/-- Removing the file of a zone empties that zone alone. -/
theorem removeFile (h : Backing path t zones)
    (hremoved : t.removeFile (zonePath path zone) = .ok t') :
    Backing path t' (zones.set zone {}) := by
  have hothers : ∀ other, other ≠ zone → Cache.opened t' path other = Cache.opened t path other :=
    fun _ => opened_removeFile h.nested hremoved
  obtain ⟨contents, hlookup, rfl⟩ := FileTree.removeFile_ok hremoved
  obtain ⟨hlocate, hfile⟩ := FileTree.lookup_ok.mp hlookup
  rw [place_zonePath] at hfile hothers ⊢
  have hspares : FileTree.Spares (· = slot (t.place path) zone) t
      (t.removeAt (slot (t.place path) zone)) := FileTree.spares_removeAt h.nested rfl hfile
  have hgone : stored (t.removeAt (slot (t.place path) zone)) (slot (t.place path) zone) = {} := by
    apply stored_of_no_file
    simp [FileTree.node?_removeAt_file h.nested hfile]
  refine ⟨hspares.nested h.nested, ?_, ?_⟩
  · intro other hne
    rw [FileTree.place_congr hspares.current] at hne ⊢
    by_cases hsame : slot (t.place path) other = slot (t.place path) zone
    · rw [hsame, hgone] at hne
      exact absurd rfl hne
    · rw [stored_congr (hspares.untouched _ hsame)] at hne
      exact hspares.locate (h.reachable other hne)
  · intro other
    by_cases hsame : other = zone
    · rw [hsame, Zones.set_self]
      rcases opened_cases (t.removeAt (slot (t.place path) zone)) path zone with hempty | hstored
      · exact hempty
      · rw [hstored, FileTree.place_congr hspares.current, hgone]
    · rw [Zones.set_of_ne zones _ hsame, ← h.opened]
      exact hothers other hsame

/-- Where nothing is stored, nothing is loaded and nothing need be within reach. -/
theorem of_nothing_stored (nested : t.Nested)
    (nothing : ∀ zone, stored t (slot (t.place path) zone) = {}) :
    Backing path t fun _ => {} := by
  refine ⟨nested, ?_, ?_⟩
  · intro zone hne
    rw [nothing] at hne
    exact absurd rfl hne
  · intro zone
    rcases opened_cases t path zone with hempty | hstored
    · exact hempty
    · rw [hstored, nothing]

/-- Removing the directory leaves no zone with entries, even where it can only be emptied. -/
theorem removeDirectory (h : Backing path t zones) (named : path ≠ "") :
    ∃ zones', Backing path (t.removeDirectory path).1 zones' ∧
      ∀ zone, (zones' zone).entries = ∅ := by
  have hnested := h.nested.removeDirectory path
  by_cases hthere : t.lookup path = .ok (t.place path, .directory)
  · refine ⟨_, of_nothing_stored hnested fun zone => ?_, fun _ => rfl⟩
    have hprefix : (t.place path).isPrefixOf (slot (t.place path) zone) = true :=
      List.isPrefixOf_iff_prefix.mpr (List.prefix_append _ _)
    have hbelow : slot (t.place path) zone ≠ t.place path := by simp [slot]
    apply stored_of_no_file
    rw [FileTree.place_congr (FileTree.filesFrom_removeDirectory (fun _ => False) t path).current,
      FileTree.removeDirectory, hthere]
    dsimp only
    split
    case isTrue => simp [FileTree.node?_removeAt (proper_slot _ zone), hprefix]
    case isFalse => simp [FileTree.node?_clearAt (proper_slot _ zone), hprefix, hbelow]
  · have hsame : (t.removeDirectory path).1 = t := by
      unfold FileTree.removeDirectory
      split
      case h_1 => rfl
      case h_2 => rfl
      case h_3 l hlookup =>
          obtain ⟨hlocate, -⟩ := FileTree.lookup_ok.mp hlookup
          rw [FileTree.place_of_locate hlocate] at hlookup
          exact absurd hlookup hthere
    rw [hsame]
    refine ⟨zones, h, fun zone => ?_⟩
    by_contra hne
    exact hthere (h.lookup_directory named hne)

end Backing

/-! ## The cache -/

namespace Workspace

/-- A cache that is set up like another one.  With a directory, what it shows would be loaded. -/
structure Backed (fresh : Cache) (w : Workspace) : Prop where
  enabled : w.cache.enabled = fresh.enabled
  location : w.cache.location = fresh.location
  nested : w.files.Nested
  backing : ∀ path, fresh.location = some path → Backing path w.files w.view

variable {fresh : Cache} {w : Workspace} {path : Path} {zones : Zones} {zone key : String}

theorem view_of_backing (hlocation : w.cache.location = some path)
    (memory : ∀ zone z, w.cache.zones.get? zone = some z → z = zones zone)
    (backing : Backing path w.files zones) : w.view = zones := by
  funext zone
  rcases hget : w.cache.zones.get? zone with - | z
  · rw [view, hget, hlocation]
    exact backing.opened zone
  · rw [view_of_memory hget]
    exact memory zone z hget

theorem view_of_inMemory (hlocation : w.cache.location = none) (zone : String) :
    w.view zone = (w.cache.zones.get? zone).getD {} := by
  rw [view, hlocation]
  rcases w.cache.zones.get? zone with - | z <;> rfl

theorem backed_ofSetup {s : Setup} {t : FileTree} (nested : t.Nested)
    (unused : s.persistent = true → Unused s.directory t) :
    Backed (ofSetup s) ⟨ofSetup s, t⟩ := by
  refine ⟨rfl, rfl, nested, ?_⟩
  intro path hpath
  obtain ⟨hpersistent, rfl⟩ : s.persistent = true ∧ s.directory = path := by
    simpa [ofSetup] using hpath
  have backing := backing_of_unused nested (unused hpersistent)
  have hview : Workspace.view ⟨ofSetup s, t⟩ = opened t s.directory := by
    apply view_of_backing hpath _ backing
    intro zone z hget
    cases hget
  rwa [hview]

theorem Backed.openZone (h : w.Backed fresh) (zone : String) :
    (w.openZone zone).2.Backed fresh := by
  obtain ⟨henabled, hlocation, -⟩ := openZone_snd w zone
  refine ⟨henabled.trans h.enabled, hlocation.trans h.location,
    (view_openZone_snd h.nested zone).1, ?_⟩
  intro path hpath
  exact (Backing.kept path).openZone (h.location.trans hpath) (h.backing path hpath) zone

theorem Backed.write (h : w.Backed fresh) (zone key : String) (value : Json) :
    (w.write zone key value).2.Backed fresh := by
  obtain ⟨henabled, hlocation⟩ := write_snd w zone key value
  refine ⟨henabled.trans h.enabled, hlocation.trans h.location,
    (view_write h.nested zone key value).1, ?_⟩
  intro path hpath
  exact (Backing.kept path).write (h.location.trans hpath) (h.backing path hpath) zone key value

theorem Backed.removeEntry (h : w.Backed fresh) (zone key : String) :
    (w.removeEntry zone key).2.Backed fresh := by
  obtain ⟨henabled, hlocation⟩ := removeEntry_snd w zone key
  refine ⟨henabled.trans h.enabled, hlocation.trans h.location,
    nested_removeEntry h.nested zone key, ?_⟩
  intro path hpath
  exact (Backing.kept path).removeEntry (h.location.trans hpath) (h.backing path hpath) zone key

theorem Backed.flushZone (h : w.Backed fresh) (hpath : fresh.location = some path)
    (zone : String) : Backing path (w.flushZone zone) w.view :=
  (Backing.kept path).flushZone (h.location.trans hpath) (h.backing path hpath) zone

theorem Backed.flushAll (h : w.Backed fresh) (hpath : fresh.location = some path) :
    Backing path w.flushAll w.view :=
  (Backing.kept path).flushAll (h.location.trans hpath) (h.backing path hpath)

/-- The files of a removed zone back the other zones as they were, whether the removal succeeds or
fails. -/
theorem Backed.files_removeZone (h : w.Backed fresh) (hpath : fresh.location = some path)
    (zone : String) :
    ∃ zones, Backing path (w.removeZone zone).2.files zones ∧ (zones zone).entries = ∅ ∧
      ∀ other, other ≠ zone → zones other = w.view other := by
  obtain ⟨zones, backing, hothers⟩ : ∃ zones,
      Backing path (w.removeZone zone).2.files zones ∧
        ∀ other, other ≠ zone → zones other = w.view other := by
    have hflushed := h.flushZone hpath zone
    rw [removeZone_of_persistent (h.location.trans hpath)]
    dsimp only
    split
    case isTrue =>
        split
        case h_1 files hremoved =>
            exact ⟨_, hflushed.removeFile hremoved, fun _ hne => Zones.set_of_ne w.view {} hne⟩
        case h_2 => exact ⟨w.view, hflushed, fun _ _ => rfl⟩
    case isFalse => exact ⟨w.view, hflushed, fun _ _ => rfl⟩
  have hgone := lookup_removeZone_ne_file h.nested (h.location.trans hpath) zone
  exact ⟨zones, backing, backing.entries_of_lookup hgone, hothers⟩

/-- A removed zone has no entries any more, and all others are as they were. -/
theorem Backed.removeZone (h : w.Backed fresh) (zone : String) :
    (w.removeZone zone).2.Backed fresh ∧ ((w.removeZone zone).2.view zone).entries = ∅ ∧
      ∀ other, other ≠ zone → (w.removeZone zone).2.view other = w.view other := by
  have hcache := cache_removeZone w zone
  have hnested := nested_removeZone h.nested zone
  have henabled : (w.removeZone zone).2.cache.enabled = fresh.enabled := by rw [hcache, h.enabled]
  have hlocation : (w.removeZone zone).2.cache.location = fresh.location := by
    rw [hcache, h.location]
  rcases hfresh : fresh.location with - | path
  · rw [hfresh] at hlocation
    have hview := h.location.trans hfresh
    refine ⟨⟨henabled, hlocation.trans hfresh.symm, hnested, by simp [hfresh]⟩, ?_, ?_⟩
    · rw [view_of_inMemory hlocation, hcache, Table.get?_erase, if_pos rfl]
      rfl
    · intro other hne
      rw [view_of_inMemory hlocation, view_of_inMemory hview, hcache, Table.get?_erase, if_neg hne]
  · obtain ⟨zones, backing, hempty, hothers⟩ := h.files_removeZone hfresh zone
    have hview : (w.removeZone zone).2.view = zones := by
      apply view_of_backing (hlocation.trans hfresh) _ backing
      intro other z hget
      rw [hcache, Table.get?_erase] at hget
      split at hget
      case isTrue => cases hget
      case isFalse hne => rw [hothers other hne, view_of_memory hget]
    rw [hview]
    refine ⟨⟨henabled, hlocation, hnested, ?_⟩, hempty, hothers⟩
    intro path' hpath'
    cases hfresh.symm.trans hpath'
    rwa [hview]

theorem files_removeAll (hlocation : w.cache.location = some path) :
    w.removeAll.2.files = (w.flushAll.removeDirectory path).1 := by
  unfold Workspace.removeAll FileTree.removeDirectory FileTree.exists?
  simp only [hlocation]
  rcases w.flushAll.lookup path with e | ⟨l, contents | -⟩
  · rfl
  · rfl
  · by_cases hnames : FileTree.namesEntry path = true
    · simp [Except.isOk, Except.toBool, hnames]
    · simp [Except.isOk, Except.toBool, hnames]

/-- When everything is removed no zone has entries any more; but in a directory that is given by the
empty path all are as they were. -/
theorem Backed.removeAll (h : w.Backed fresh) :
    w.removeAll.2.Backed fresh ∧
      if fresh.location = some "" then w.removeAll.2.view = w.view
      else ∀ zone, (w.removeAll.2.view zone).entries = ∅ := by
  have hcache := cache_removeAll w
  have hnested := nested_removeAll h.nested
  have henabled : w.removeAll.2.cache.enabled = fresh.enabled := by rw [hcache, h.enabled]
  have hlocation : w.removeAll.2.cache.location = fresh.location := by rw [hcache, h.location]
  have hmemory : ∀ zone z (zones : Zones), w.removeAll.2.cache.zones.get? zone = some z →
      z = zones zone := by
    intro zone z zones hget
    rw [hcache] at hget
    cases hget
  rcases hfresh : fresh.location with - | path
  · refine ⟨⟨henabled, hlocation, hnested, by simp [hfresh]⟩, ?_⟩
    rw [if_neg (by simp)]
    intro zone
    rw [view_of_inMemory (hlocation.trans hfresh), hcache]
    rfl
  · have hflushed := h.flushAll hfresh
    have hfiles := files_removeAll (h.location.trans hfresh)
    have backed : ∀ zones, Backing path w.removeAll.2.files zones →
        w.removeAll.2.Backed fresh ∧ w.removeAll.2.view = zones := by
      intro zones backing
      have hview : w.removeAll.2.view = zones :=
        view_of_backing (hlocation.trans hfresh) (fun zone z => hmemory zone z zones) backing
      refine ⟨⟨henabled, hlocation, hnested, ?_⟩, hview⟩
      intro path' hpath'
      cases hfresh.symm.trans hpath'
      rwa [hview]
    rw [hfiles] at backed
    by_cases hnamed : path = ""
    · subst hnamed
      rw [if_pos rfl]
      exact backed w.view hflushed
    · rw [if_neg (by simpa using hnamed)]
      obtain ⟨zones, backing, hempty⟩ := hflushed.removeDirectory hnamed
      obtain ⟨hbacked, hview⟩ := backed zones backing
      rw [hview]
      exact ⟨hbacked, hempty⟩

end Workspace

end Testbed.Cache
