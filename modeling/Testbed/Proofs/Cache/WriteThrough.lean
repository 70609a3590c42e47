import Testbed.Proofs.Cache.Lookup
import Testbed.Proofs.Cache.View

/-!
# Writing through

A change is written to the files before it is made in memory, and it is not made if that fails.  So
what ties the files to the zones that a cache shows is kept by every use of the cache if it is kept
where the directory is made and where the file of a zone is written.  One such tie is that every
zone would be loaded as it is shown.  Then letting go of the cache changes nothing, even where a
file cannot be written any more.
-/

namespace Testbed.Cache

/-- A tie between files and zones that is kept where the directory is made, and where the file of a
zone is written or fails to be written. -/
structure Kept (path : Path) (P : FileTree → Zones → Prop) : Prop where
  nested : ∀ {t zones}, P t zones → t.Nested
  makeDirectories : ∀ {t zones}, P t zones → P (t.makeDirectories path).1 zones
  dump : ∀ {t zones} (zone : String) (z : Zone), P t zones →
    P (dump t (zonePath path zone) z).1
      (match (dump t (zonePath path zone) z).2 with
        | .ok () => zones.set zone z
        | .error _ => zones)

/-- Every zone would be loaded as it is known. -/
structure Loads (path : Path) (t : FileTree) (zones : Zones) : Prop where
  nested : t.Nested
  opened : ∀ zone, opened t path zone = zones zone

section Loads

variable {path : Path} {t : FileTree} {zones : Zones}

theorem Loads.makeDirectories (h : Loads path t zones) :
    Loads path (t.makeDirectories path).1 zones where
  nested := (FileTree.grows_makeDirectories t path).nested h.nested
  opened := by
    intro zone
    rw [opened_makeDirectories h.nested, h.opened]

/-- Writing the file of a zone changes that zone alone, and does so if all goes well. -/
theorem Loads.dump (h : Loads path t zones) (zone : String) (z : Zone) :
    Loads path (dump t (zonePath path zone) z).1
      (match (dump t (zonePath path zone) z).2 with
        | .ok () => zones.set zone z
        | .error _ => zones) where
  nested := (spares_dump h.nested path zone z rfl).1.nested h.nested
  opened := by
    intro other
    have hself := opened_dump_self h.nested path zone z
    by_cases hsame : other = zone
    · subst hsame
      rw [hself]
      rcases (Cache.dump t (zonePath path other) z).2 with e | ⟨⟩
      · exact h.opened other
      · exact (Zones.set_self zones other z).symm
    · rw [opened_dump h.nested path z hsame, h.opened]
      rcases (Cache.dump t (zonePath path zone) z).2 with e | ⟨⟩
      · rfl
      · exact (Zones.set_of_ne zones z hsame).symm

/-- Removing the file of a zone does not change what would be loaded of another. -/
theorem opened_removeFile {t' : FileTree} {zone other : String} (nested : t.Nested)
    (hremoved : t.removeFile (zonePath path zone) = .ok t') (hne : other ≠ zone) :
    opened t' path other = opened t path other := by
  obtain ⟨contents, hlookup, rfl⟩ := FileTree.removeFile_ok hremoved
  obtain ⟨hlocate, hfile⟩ := FileTree.lookup_ok.mp hlookup
  rw [place_zonePath] at hfile ⊢
  have hspares : FileTree.Spares (· = slot (t.place path) zone) t
      (t.removeAt (slot (t.place path) zone)) := FileTree.spares_removeAt nested rfl hfile
  apply opened_of_spares hspares (FileName.plain_ofZone zone) hlocate
  exact hspares.untouched _ fun hslot => hne (slot_injective hslot)

theorem kept_loads (path : Path) : Kept path (Loads path) :=
  ⟨Loads.nested, Loads.makeDirectories, fun zone z h => h.dump zone z⟩

end Loads

namespace Workspace

theorem openZone_snd (w : Workspace) (zone : String) :
    (w.openZone zone).2.cache.enabled = w.cache.enabled ∧
      (w.openZone zone).2.cache.location = w.cache.location ∧
      ((w.openZone zone).2.files = w.files ∨ ∃ path, w.cache.location = some path ∧
        (w.openZone zone).2.files = (w.files.makeDirectories path).1) := by
  unfold openZone
  split
  case h_1 => exact ⟨rfl, rfl, Or.inl rfl⟩
  case h_2 =>
      split
      case h_1 => exact ⟨rfl, rfl, Or.inl rfl⟩
      case h_2 path hpath =>
          split
          case h_1 hmade => exact ⟨rfl, rfl, Or.inr ⟨path, hpath, by rw [hmade]⟩⟩
          case h_2 hmade => exact ⟨rfl, rfl, Or.inr ⟨path, hpath, by rw [hmade]; rfl⟩⟩

theorem update_snd (w : Workspace) (zone : String) (z : Zone) :
    (w.update zone z).2.cache.enabled = w.cache.enabled ∧
      (w.update zone z).2.cache.location = w.cache.location := by
  unfold update
  split
  case h_1 => exact ⟨rfl, rfl⟩
  case h_2 => split <;> exact ⟨rfl, rfl⟩

theorem write_snd (w : Workspace) (zone key : String) (value : Json) :
    (w.write zone key value).2.cache.enabled = w.cache.enabled ∧
      (w.write zone key value).2.cache.location = w.cache.location := by
  obtain ⟨henabled, hlocation, -⟩ := openZone_snd w zone
  rcases hopen : w.openZone zone with ⟨e | z, w'⟩
  · rw [hopen] at henabled hlocation
    rw [write_of_error hopen]
    exact ⟨henabled, hlocation⟩
  · rw [hopen] at henabled hlocation
    rw [write_of_openZone hopen]
    obtain ⟨henabled', hlocation'⟩ := update_snd w' zone (z.write key value)
    exact ⟨henabled'.trans henabled, hlocation'.trans hlocation⟩

theorem removeEntry_snd (w : Workspace) (zone key : String) :
    (w.removeEntry zone key).2.cache.enabled = w.cache.enabled ∧
      (w.removeEntry zone key).2.cache.location = w.cache.location := by
  obtain ⟨henabled, hlocation, -⟩ := openZone_snd w zone
  rcases hopen : w.openZone zone with ⟨e | z, w'⟩
  · rw [hopen] at henabled hlocation
    rw [removeEntry_of_error hopen]
    exact ⟨henabled, hlocation⟩
  · rw [hopen] at henabled hlocation
    rw [removeEntry_of_openZone hopen]
    split
    case isTrue =>
        obtain ⟨henabled', hlocation'⟩ := update_snd w' zone (z.erase key)
        exact ⟨henabled'.trans henabled, hlocation'.trans hlocation⟩
    case isFalse => exact ⟨henabled, hlocation⟩

theorem run_snd (w : Workspace) (o : Operation) :
    (o.run w).2.cache.enabled = w.cache.enabled ∧
      (o.run w).2.cache.location = w.cache.location := by
  cases o with
  | read decode zone key =>
      obtain ⟨henabled, hlocation, -⟩ := openZone_snd w zone
      rw [Operation.run, read_snd]
      exact ⟨henabled, hlocation⟩
  | write zone key value => exact write_snd w zone key value
  | cleanup zone key =>
      rcases zone with - | zone
      · rw [Operation.run, Workspace.cleanup, cache_removeAll]
        exact ⟨rfl, rfl⟩
      · rcases key with - | key
        · rw [Operation.run, Workspace.cleanup, cache_removeZone]
          exact ⟨rfl, rfl⟩
        · exact removeEntry_snd w zone key

end Workspace

namespace Kept

variable {path : Path} {P : FileTree → Zones → Prop} {t : FileTree} {zones : Zones}
  {w : Workspace} {zone key : String}

/-- Writing a zone as it is known changes nothing, even if it fails. -/
theorem flush (kept : Kept path P) (h : P t zones) {z : Zone} (hz : z = zones zone) :
    P (Workspace.flush t (some path) zone z) zones := by
  have hdump := kept.dump zone z h
  have hsame : zones.set zone z = zones := Zones.set_eq_self hz.symm
  unfold Workspace.flush
  dsimp only
  rcases hresult : (Cache.dump t (zonePath path zone) z).2 with e | ⟨⟩
  · simpa only [hresult] using hdump
  · simpa only [hresult, hsame] using hdump

theorem openZone (kept : Kept path P) (hlocation : w.cache.location = some path)
    (h : P w.files w.view) (zone : String) :
    P (w.openZone zone).2.files (w.openZone zone).2.view := by
  rw [(Workspace.view_openZone_snd (kept.nested h) zone).2]
  obtain ⟨-, -, hsame | ⟨path', hpath', hmade⟩⟩ := w.openZone_snd zone
  · rw [hsame]
    exact h
  · cases hlocation.symm.trans hpath'
    rw [hmade]
    exact kept.makeDirectories h

/-- A change is written through. -/
theorem update (kept : Kept path P) (hlocation : w.cache.location = some path)
    (h : P w.files w.view) {z₀ : Zone} (held : w.cache.zones.get? zone = some z₀) (z : Zone) :
    P (w.update zone z).2.files (w.update zone z).2.view := by
  obtain ⟨-, hview⟩ := Workspace.view_update (kept.nested h) held z
  have hdump := kept.dump zone z h
  rcases heq : Cache.dump w.files (zonePath path zone) z with ⟨files, cause | ⟨⟩⟩
  · have hupdate : w.update zone z = (.error (.store zone cause), { w with files }) := by
      simp [Workspace.update, hlocation, heq]
    rw [heq] at hdump
    rw [hupdate] at hview ⊢
    rcases hview with ⟨-, hsame⟩ | ⟨hdone, -⟩
    · rw [hsame]
      exact hdump
    · cases hdone
  · have hupdate : w.update zone z = (.ok (), { w with files }.hold zone z) := by
      simp [Workspace.update, hlocation, heq]
    rw [heq] at hdump
    rw [hupdate] at hview ⊢
    rcases hview with ⟨⟨cause, hfailed⟩, -⟩ | ⟨-, hset⟩
    · cases hfailed
    · have hzones : Workspace.view _ = Zones.set w.view zone z := funext hset
      rw [hzones]
      exact hdump

theorem write (kept : Kept path P) (hlocation : w.cache.location = some path)
    (h : P w.files w.view) (zone key : String) (value : Json) :
    P (w.write zone key value).2.files (w.write zone key value).2.view := by
  have hopened := kept.openZone hlocation h zone
  obtain ⟨-, hsame, -⟩ := w.openZone_snd zone
  rcases Workspace.view_openZone (kept.nested h) zone with
    ⟨w', hopen, -, -, hheld⟩ | ⟨e, w', hopen, -⟩
  · rw [hopen] at hopened hsame
    rw [Workspace.write_of_openZone hopen]
    exact kept.update (hsame.trans hlocation) hopened hheld _
  · rw [hopen] at hopened
    rw [Workspace.write_of_error hopen]
    exact hopened

theorem removeEntry (kept : Kept path P) (hlocation : w.cache.location = some path)
    (h : P w.files w.view) (zone key : String) :
    P (w.removeEntry zone key).2.files (w.removeEntry zone key).2.view := by
  have hopened := kept.openZone hlocation h zone
  obtain ⟨-, hsame, -⟩ := w.openZone_snd zone
  rcases Workspace.view_openZone (kept.nested h) zone with
    ⟨w', hopen, -, -, hheld⟩ | ⟨e, w', hopen, -⟩
  · rw [hopen] at hopened hsame
    rw [Workspace.removeEntry_of_openZone hopen]
    split
    case isTrue => exact kept.update (hsame.trans hlocation) hopened hheld _
    case isFalse => exact hopened
  · rw [hopen] at hopened
    rw [Workspace.removeEntry_of_error hopen]
    exact hopened

/-- The files of zones in memory are written as these are shown. -/
theorem flush_shown (kept : Kept path P) (hlocation : w.cache.location = some path)
    (files : FileTree) (zone : String) (z : Zone) (hget : w.cache.zones.get? zone = some z)
    (h : P files w.view) : P (Workspace.flush files w.cache.location zone z) w.view := by
  rw [hlocation]
  exact kept.flush h (Workspace.view_of_memory hget).symm

theorem flushZone (kept : Kept path P) (hlocation : w.cache.location = some path)
    (h : P w.files w.view) (zone : String) : P (w.flushZone zone) w.view :=
  Workspace.flushZone_preserves (P := fun files => P files w.view) (kept.flush_shown hlocation) h
    zone

theorem flushAll (kept : Kept path P) (hlocation : w.cache.location = some path)
    (h : P w.files w.view) : P w.flushAll w.view :=
  Workspace.flushAll_preserves (P := fun files => P files w.view) (kept.flush_shown hlocation) h

end Kept

namespace Workspace

/-- What a cache with a directory shows would be loaded from its files. -/
def WrittenThrough (w : Workspace) : Prop :=
  ∀ path, w.cache.location = some path → Loads path w.files w.view

variable {w : Workspace}

/-- Only the zones in memory can differ from the files. -/
theorem writtenThrough_of_memory (nested : w.files.Nested)
    (h : ∀ path zone z, w.cache.location = some path → w.cache.zones.get? zone = some z →
      opened w.files path zone = z) : w.WrittenThrough := by
  intro path hpath
  refine ⟨nested, fun zone => ?_⟩
  rcases hget : w.cache.zones.get? zone with - | z
  · rw [view, hget, hpath]
  · rw [view_of_memory hget]
    exact h path zone z hpath hget

theorem writtenThrough_of_no_zones (nested : w.files.Nested) (hzones : w.cache.zones = ∅) :
    w.WrittenThrough := by
  apply writtenThrough_of_memory nested
  intro path zone z _ hget
  rw [hzones] at hget
  cases hget

theorem WrittenThrough.openZone (h : w.WrittenThrough) (zone : String) :
    (w.openZone zone).2.WrittenThrough := by
  intro path hpath
  rw [(w.openZone_snd zone).2.1] at hpath
  exact (kept_loads path).openZone hpath (h path hpath) zone

theorem WrittenThrough.write (h : w.WrittenThrough) (zone key : String) (value : Json) :
    (w.write zone key value).2.WrittenThrough := by
  intro path hpath
  rw [(w.write_snd zone key value).2] at hpath
  exact (kept_loads path).write hpath (h path hpath) zone key value

theorem WrittenThrough.removeEntry (h : w.WrittenThrough) (zone key : String) :
    (w.removeEntry zone key).2.WrittenThrough := by
  intro path hpath
  rw [(w.removeEntry_snd zone key).2] at hpath
  exact (kept_loads path).removeEntry hpath (h path hpath) zone key

/-- After a zone has been removed, any other would be loaded as it was shown. -/
theorem WrittenThrough.opened_removeZone (h : w.WrittenThrough) {path : Path}
    (hlocation : w.cache.location = some path) {zone other : String} (hne : other ≠ zone) :
    opened (w.removeZone zone).2.files path other = w.view other := by
  have hflushed := (kept_loads path).flushZone hlocation (h path hlocation) zone
  rw [← hflushed.opened other, removeZone_of_persistent hlocation]
  dsimp only
  split
  case isTrue =>
      split
      case h_1 hremoved => exact opened_removeFile hflushed.nested hremoved hne
      case h_2 => rfl
  case isFalse => rfl

theorem WrittenThrough.removeZone (h : w.WrittenThrough) (nested : w.files.Nested)
    (zone : String) : (w.removeZone zone).2.WrittenThrough := by
  have hcache := cache_removeZone w zone
  apply writtenThrough_of_memory (nested_removeZone nested zone)
  intro path other z hpath hget
  rw [hcache] at hpath
  rw [hcache, Table.get?_erase] at hget
  split at hget
  case isTrue => cases hget
  case isFalse hne => exact (h.opened_removeZone hpath hne).trans (view_of_memory hget)

/-- Removing a zone changes no other. -/
theorem WrittenThrough.view_removeZone (h : w.WrittenThrough) {path : Path}
    (hlocation : w.cache.location = some path) {zone other : String} (hne : other ≠ zone) :
    (w.removeZone zone).2.view other = w.view other := by
  have hopened := h.opened_removeZone hlocation hne
  rw [view, cache_removeZone, Table.get?_erase, if_neg hne, hlocation]
  rcases hget : w.cache.zones.get? other with - | z
  · exact hopened
  · exact (view_of_memory hget).symm

/-- Whatever is done, the files agree with the memory. -/
theorem WrittenThrough.run (h : w.WrittenThrough) (nested : w.files.Nested) (o : Operation) :
    (o.run w).2.WrittenThrough := by
  cases o with
  | read decode zone key =>
      rw [Operation.run, read_snd]
      exact h.openZone zone
  | write zone key value => exact h.write zone key value
  | cleanup zone key =>
      rcases zone with - | zone
      · exact writtenThrough_of_no_zones (nested_removeAll nested)
          (congrArg Cache.zones (cache_removeAll w))
      · rcases key with - | key
        · exact h.removeZone nested zone
        · exact h.removeEntry zone key

theorem nested_run (nested : w.files.Nested) (o : Operation) : (o.run w).2.files.Nested := by
  cases o with
  | read decode zone key =>
      rw [Operation.run, read_snd]
      exact (view_openZone_snd nested zone).1
  | write zone key value => exact (view_write nested zone key value).1
  | cleanup zone key => exact nested_cleanup nested zone key

/-- The files of a cache agree with its memory after any history, also where operations fail and
where it is set up anew. -/
theorem writtenThrough_after {fresh : Cache} (hzones : fresh.zones = ∅) (nested : w.files.Nested)
    (h : w.WrittenThrough) (history : List Event) : (after fresh w history).WrittenThrough := by
  induction history generalizing w with
  | nil => exact h
  | cons event rest ih =>
      cases event with
      | operation o => exact ih (nested_run nested o) (h.run nested o)
      | reopen =>
          have hnested := nested_flushAll nested
          exact ih hnested (writtenThrough_of_no_zones hnested hzones)

/-- A new cache over the same directory shows what the one that it replaces has shown. -/
theorem WrittenThrough.view_reopen (h : w.WrittenThrough) {path : Path}
    (hlocation : w.cache.location = some path) {fresh : Cache} (hpath : fresh.location = some path)
    (hzones : fresh.zones = ∅) : (w.reopen fresh).view = w.view := by
  funext zone
  have hnone : fresh.zones.get? zone = none := by
    rw [hzones]
    rfl
  rw [view, reopen, hnone, hpath]
  exact ((kept_loads path).flushAll hlocation (h path hlocation)).opened zone

end Workspace

end Testbed.Cache
