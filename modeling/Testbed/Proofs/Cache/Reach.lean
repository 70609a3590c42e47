import Testbed.Proofs.Cache.WriteThrough
import Testbed.Proofs.FileTree.Near

/-!
# What a cache can write

Whether a change of a zone succeeds is decided by the files alone: the directory must be there or
be made, the paths of the zone's file and of its draft must lead into it, and no directory may be in
the place of either.  Neither the making of directories nor the writing of files changes any of
that, so a change succeeds or fails whatever other changes have been made or have failed before.

This takes that a zone is in memory only while there is a directory for its file, as it is from the
beginning of a history on.
-/

namespace Testbed.Cache

open FileTree (Location Near Spares)

/-! ## Writing a file -/

/-- The file of a zone can be written: the way to it and to its draft is free. -/
structure Writable (t : FileTree) (path : Path) (zone : String) : Prop where
  draft : t.locate (zonePath path zone ++ draftStamp) = .ok (draftSlot (t.place path) zone)
  draftFree : t.node? (draftSlot (t.place path) zone) ≠ some .directory
  file : t.locate (zonePath path zone) = .ok (slot (t.place path) zone)
  fileFree : t.node? (slot (t.place path) zone) ≠ some .directory

section Writable

variable {t t' : FileTree} {path : Path} {zone other : String} {z : Zone} {l : Location}

/-- A draft that is written changes nothing of the way to its file. -/
theorem spares_draft (hdraft : t.locate (zonePath path zone ++ draftStamp) = .ok l)
    (free : t.node? (draftSlot (t.place path) zone) ≠ some .directory) (node : FileTree.Node) :
    let drafted := t.put (draftSlot (t.place path) zone) node
    Spares (Written (t.place path) zone) t drafted ∧
      drafted.locate (zonePath path zone) = t.locate (zonePath path zone) ∧
      drafted.node? (slot (t.place path) zone) = t.node? (slot (t.place path) zone) := by
  intro drafted
  rw [zonePath_append] at hdraft
  obtain ⟨-, hdirectory, -⟩ := FileTree.locate_join (FileName.plain_draft zone) hdraft
  have hspares : Spares (Written (t.place path) zone) t drafted :=
    FileTree.spares_put (Or.inl rfl) (Or.inr ⟨_, _, rfl, hdirectory⟩) free node
  refine ⟨hspares, ?_, ?_⟩
  · exact hspares.locate_join (FileName.plain_draft zone) hdraft (FileName.plain_ofZone zone)
  · exact FileTree.node?_put_of_ne (proper_draftSlot _ zone) t node
      (draftSlot_ne_slot _ zone zone).symm

/-- The file of a zone is written if the way is free, whatever the zone is. -/
theorem dump_ok_iff : (dump t (zonePath path zone) z).2 = .ok () ↔ Writable t path zone := by
  constructor
  · intro done
    unfold dump at done
    split at done
    case h_1 => cases done
    case h_2 drafted hdrafted =>
        obtain ⟨hdraft, hdraftFree, hput⟩ := FileTree.write_ok hdrafted
        rw [place_draft] at hdraft hdraftFree hput
        obtain ⟨hspares, hlocate, hnode⟩ := spares_draft hdraft hdraftFree (.file z.toBytes)
        rw [← hput] at hspares hlocate hnode
        split at done
        case h_1 => cases done
        case h_2 renamed hrenamed =>
            obtain ⟨-, -, hfile, hfileFree, -⟩ := FileTree.rename_ok hrenamed
            rw [FileTree.place_congr hspares.current, place_zonePath] at hfile hfileFree
            rw [hlocate] at hfile
            rw [hnode] at hfileFree
            exact ⟨hdraft, hdraftFree, hfile, hfileFree⟩
  · rintro ⟨hdraft, hdraftFree, hfile, hfileFree⟩
    obtain ⟨hspares, hlocate, hnode⟩ := spares_draft hdraft hdraftFree (.file z.toBytes)
    have hslash : (zonePath path zone ++ draftStamp).endsInSlash = false := by
      rw [zonePath_append]
      exact Path.endsInSlash_join path (FileName.plain_draft zone)
    have hlookup := FileTree.lookup_ok.mpr ⟨hspares.locate hdraft,
      FileTree.node?_put_self (proper_draftSlot _ zone) t (.file z.toBytes)⟩
    have htarget := FileTree.locateForWriting_of_locate
      (Path.endsInSlash_join path (FileName.plain_ofZone zone)) (hlocate.trans hfile)
      (by rwa [hnode])
    rw [dump, FileTree.write, FileTree.locateForWriting_of_locate hslash hdraft hdraftFree]
    dsimp only
    rw [FileTree.rename, hlookup]
    dsimp only
    rw [zonePath, htarget]

/-- The same files can be written wherever the same directories are there. -/
theorem Writable.near {base : Location} (h : Writable t path zone) (near : Near base t t') :
    Writable t' path zone := by
  have hplace := FileTree.place_congr near.current path
  refine ⟨?_, ?_, ?_, ?_⟩
  · rw [hplace]
    exact near.locate h.draft
  · rw [hplace, ne_eq, near.directories]
    exact h.draftFree
  · rw [hplace]
    exact near.locate h.file
  · rw [hplace, ne_eq, near.directories]
    exact h.fileFree

theorem notInside_slot (base : Location) (zone : String) :
    FileTree.notInside base (slot base zone) = false := FileTree.notInside_append _ _

theorem notInside_draftSlot (base : Location) (zone : String) :
    FileTree.notInside base (draftSlot base zone) = false := FileTree.notInside_append _ _

/-- Writing the file of a zone changes files in the directory alone. -/
theorem near_dump (nested : t.Nested) (path : Path) (zone : String) (z : Zone) :
    Near (t.place path) t (dump t (zonePath path zone) z).1 := by
  rcases dump_cases t path zone z rfl with
    ⟨e, heq⟩ | ⟨hdirectory, hfree, hrest⟩
  · rw [heq]
    exact .refl _ t
  have insideDraft := notInside_draftSlot (t.place path) zone
  have hdraft := FileTree.near_put insideDraft hfree z.toBytes
  rcases hrest with ⟨e, heq⟩ | ⟨-, hslotFree, heq⟩
  · rw [heq]
    exact hdraft
  · have hspares : Spares (Written (t.place path) zone) t
        (t.put (draftSlot (t.place path) zone) (.file z.toBytes)) :=
      FileTree.spares_put (Or.inl rfl) (Or.inr ⟨_, _, rfl, hdirectory⟩) hfree _
    have hdrafted := hspares.nested nested
    have hfile := FileTree.node?_put_self (proper_draftSlot (t.place path) zone) t (.file z.toBytes)
    rw [heq]
    refine (hdraft.trans (FileTree.near_removeAt hdrafted insideDraft hfile)).trans
      (FileTree.near_put (notInside_slot _ zone) ?_ _)
    rw [FileTree.node?_removeAt_file hdrafted hfile, if_neg (draftSlot_ne_slot _ zone zone).symm]
    exact hslotFree

/-- So does removing it. -/
theorem near_removeFile (nested : t.Nested)
    (removed : t.removeFile (zonePath path zone) = .ok t') : Near (t.place path) t t' := by
  obtain ⟨contents, hlookup, rfl⟩ := FileTree.removeFile_ok removed
  rw [place_zonePath] at hlookup ⊢
  exact FileTree.near_removeAt nested (notInside_slot _ zone) (FileTree.lookup_ok.mp hlookup).2

/-- Writing the file of a zone, or failing to, leaves those that can be written as they are. -/
theorem writable_dump (nested : t.Nested) :
    Writable (dump t (zonePath path zone) z).1 path other ↔ Writable t path other :=
  ⟨fun h => h.near (near_dump nested path zone z).symm,
    fun h => h.near (near_dump nested path zone z)⟩

end Writable

/-! ## Making the directory -/

/-- The directory is there, or it can be made. -/
def Opens (t : FileTree) (path : Path) : Prop := ∃ t', t.makeDirectories path = (t', none)

/-- The directory is there, or it can be made, and then the file of a zone can be written. -/
def Takes (t : FileTree) (path : Path) (zone : String) : Prop :=
  ∃ t', t.makeDirectories path = (t', none) ∧ Writable t' path zone

/-- The same can be written in two trees. -/
structure SameReach (path : Path) (t t' : FileTree) : Prop where
  opens : Opens t' path ↔ Opens t path
  takes : ∀ zone, Takes t' path zone ↔ Takes t path zone

section Reach

variable {t t' t'' u u' : FileTree} {path : Path} {zone : String} {z : Zone}

theorem takes_iff (made : t.makeDirectories path = (u, none)) :
    Takes t path zone ↔ Writable u path zone := by
  constructor
  · rintro ⟨u', hmade, h⟩
    cases made.symm.trans hmade
    exact h
  · exact fun h => ⟨u, made, h⟩

theorem Takes.opens (h : Takes t path zone) : Opens t path := by
  obtain ⟨u, made, -⟩ := h
  exact ⟨u, made⟩

theorem not_opens {cause : FileError} (failed : t.makeDirectories path = (u, some cause)) :
    ¬Opens t path := by
  rintro ⟨u', made⟩
  cases failed.symm.trans made

theorem SameReach.refl (path : Path) (t : FileTree) : SameReach path t t :=
  ⟨Iff.rfl, fun _ => Iff.rfl⟩

theorem SameReach.symm (h : SameReach path t t') : SameReach path t' t :=
  ⟨h.opens.symm, fun zone => (h.takes zone).symm⟩

theorem SameReach.trans (h : SameReach path t t') (h' : SameReach path t' t'') :
    SameReach path t t'' :=
  ⟨h'.opens.trans h.opens, fun zone => (h'.takes zone).trans (h.takes zone)⟩

theorem sameReach_of_made (made : t.makeDirectories path = (u, none))
    (made' : t'.makeDirectories path = (u', none))
    (same : ∀ zone, Writable u' path zone ↔ Writable u path zone) : SameReach path t t' where
  opens := iff_of_true ⟨u', made'⟩ ⟨u, made⟩
  takes := fun zone => (takes_iff made').trans ((same zone).trans (takes_iff made).symm)

theorem sameReach_makeDirectories (nested : t.Nested) (path : Path) :
    SameReach path t (t.makeDirectories path).1 := by
  rcases made : t.makeDirectories path with ⟨t', - | cause⟩
  · exact sameReach_of_made made (FileTree.makeDirectories_again made) fun _ => Iff.rfl
  · have hbefore := not_opens made
    have hafter : ¬Opens t' path := by
      rintro ⟨u, hagain⟩
      exact FileTree.makeDirectories_of_failure nested made (by rw [hagain])
    exact ⟨iff_of_false hafter hbefore, fun zone =>
      iff_of_false (fun h => hafter h.opens) fun h => hbefore h.opens⟩

/-- Where the directory is there, it still is after the writing of a zone's file. -/
theorem made_dump (nested : t.Nested) (made : t.makeDirectories path = (t, none)) :
    (dump t (zonePath path zone) z).1.makeDirectories path =
      ((dump t (zonePath path zone) z).1, none) :=
  (near_dump nested path zone z).makeDirectories made

theorem sameReach_dump (nested : t.Nested) (path : Path) (zone : String) (z : Zone) :
    SameReach path t (dump t (zonePath path zone) z).1 := by
  rcases dump_unchanged_or_located t path zone z with hsame | ⟨l, hlocate⟩
  · rw [hsame]
    exact .refl path t
  · have made := FileTree.makeDirectories_of_locate (FileName.plain_draft zone) hlocate
    exact sameReach_of_made made (made_dump nested made) fun _ => writable_dump nested

/-- The use of a cache does not change what can be written. -/
theorem kept_reach (path : Path) (t : FileTree) :
    Kept path fun t' _ => t'.Nested ∧ SameReach path t t' where
  nested := And.left
  makeDirectories := fun ⟨nested, same⟩ =>
    ⟨(FileTree.grows_makeDirectories _ path).nested nested,
      same.trans (sameReach_makeDirectories nested path)⟩
  dump := fun zone z ⟨nested, same⟩ =>
    ⟨(spares_dump nested path zone z rfl).1.nested nested,
      same.trans (sameReach_dump nested path zone z)⟩

end Reach

namespace Workspace

variable {w w' : Workspace} {path : Path} {zone : String}

/-! ## Letting go of zones -/

theorem near_flush (hlocation : w.cache.location = some path) {base : Location}
    (hbase : w.files.place path = base) (files : FileTree) (zone : String) (z : Zone)
    (h : files.Nested ∧ Near base w.files files) :
    (flush files w.cache.location zone z).Nested ∧
      Near base w.files (flush files w.cache.location zone z) := by
  obtain ⟨nested, near⟩ := h
  have hdump := near_dump nested path zone z
  rw [FileTree.place_congr near.current, hbase] at hdump
  rw [hlocation]
  exact ⟨(spares_dump nested path zone z rfl).1.nested nested, near.trans hdump⟩

/-- Letting go of a zone changes files in the directory alone. -/
theorem near_flushZone (nested : w.files.Nested) (hlocation : w.cache.location = some path)
    (zone : String) : Near (w.files.place path) w.files (w.flushZone zone) :=
  (flushZone_preserves (P := fun t => t.Nested ∧ Near (w.files.place path) w.files t)
    (fun files zone z _ => near_flush hlocation rfl files zone z) ⟨nested, .refl _ _⟩ zone).2

theorem near_flushAll (nested : w.files.Nested) (hlocation : w.cache.location = some path) :
    Near (w.files.place path) w.files w.flushAll :=
  (flushAll_preserves (P := fun t => t.Nested ∧ Near (w.files.place path) w.files t)
    (fun files zone z _ => near_flush hlocation rfl files zone z) ⟨nested, .refl _ _⟩).2

/-- So does removing one. -/
theorem near_removeZone (nested : w.files.Nested) (hlocation : w.cache.location = some path)
    (zone : String) : Near (w.files.place path) w.files (w.removeZone zone).2.files := by
  have hnested := nested_flushZone nested zone
  have near := near_flushZone nested hlocation zone
  rw [removeZone_of_persistent hlocation]
  dsimp only
  split
  case isTrue =>
      split
      case h_1 files hremoved =>
          have hremove := near_removeFile hnested hremoved
          rw [FileTree.place_congr near.current] at hremove
          exact near.trans hremove
      case h_2 => exact near
  case isFalse => exact near

/-! ## Zones in memory -/

/-- A zone is in memory only while there is a directory for its file. -/
def Rooted (w : Workspace) : Prop :=
  ∀ path zone z, w.cache.location = some path → w.cache.zones.get? zone = some z →
    w.files.makeDirectories path = (w.files, none)

theorem rooted_of_no_zones (h : w.cache.zones = ∅) : w.Rooted := by
  intro path zone z _ hget
  rw [h] at hget
  cases hget

theorem Rooted.openZone (h : w.Rooted) (zone : String) : (w.openZone zone).2.Rooted := by
  unfold Workspace.openZone
  split
  case h_1 => exact h
  case h_2 =>
      split
      case h_1 hlocation =>
          intro path other z hpath
          cases hlocation.symm.trans hpath
      case h_2 path hlocation =>
          split
          case h_1 files cause hmade =>
              intro path' other z hpath hget
              cases hlocation.symm.trans hpath
              cases hmade.symm.trans (h path other z hpath hget)
          case h_2 files hmade =>
              intro path' other z hpath hget
              cases hlocation.symm.trans hpath
              exact FileTree.makeDirectories_again hmade

theorem files_update (hlocation : w.cache.location = some path) (zone : String) (z : Zone) :
    (w.update zone z).2.files = (dump w.files (zonePath path zone) z).1 := by
  rw [update, hlocation]
  dsimp only
  rcases dump w.files (zonePath path zone) z with ⟨files, cause | ⟨⟩⟩ <;> rfl

theorem Rooted.update (h : w.Rooted) (nested : w.files.Nested) {z₀ : Zone}
    (held : w.cache.zones.get? zone = some z₀) (z : Zone) : (w.update zone z).2.Rooted := by
  intro path _ _ hpath _
  rw [(w.update_snd zone z).2] at hpath
  rw [files_update hpath]
  exact made_dump nested (h path zone z₀ hpath held)

theorem Rooted.write (h : w.Rooted) (nested : w.files.Nested) (zone key : String) (value : Json) :
    (w.write zone key value).2.Rooted := by
  have hopened := h.openZone zone
  rcases view_openZone nested zone with ⟨w', hopen, hnested, -, hheld⟩ | ⟨e, w', hopen, -⟩
  · rw [hopen] at hopened
    rw [write_of_openZone hopen]
    exact hopened.update hnested hheld _
  · rw [hopen] at hopened
    rw [write_of_error hopen]
    exact hopened

theorem Rooted.removeEntry (h : w.Rooted) (nested : w.files.Nested) (zone key : String) :
    (w.removeEntry zone key).2.Rooted := by
  have hopened := h.openZone zone
  rcases view_openZone nested zone with ⟨w', hopen, hnested, -, hheld⟩ | ⟨e, w', hopen, -⟩
  · rw [hopen] at hopened
    rw [removeEntry_of_openZone hopen]
    split
    case isTrue => exact hopened.update hnested hheld _
    case isFalse => exact hopened
  · rw [hopen] at hopened
    rw [removeEntry_of_error hopen]
    exact hopened

theorem Rooted.removeZone (h : w.Rooted) (nested : w.files.Nested) (zone : String) :
    (w.removeZone zone).2.Rooted := by
  intro path other z hpath hget
  rw [cache_removeZone] at hpath hget
  rw [Table.get?_erase] at hget
  split at hget
  case isTrue => cases hget
  case isFalse =>
      exact (near_removeZone nested hpath zone).makeDirectories (h path other z hpath hget)

theorem Rooted.run (h : w.Rooted) (nested : w.files.Nested) (o : Operation) :
    (o.run w).2.Rooted := by
  cases o with
  | read decode zone key =>
      rw [Operation.run, read_snd]
      exact h.openZone zone
  | write zone key value => exact h.write nested zone key value
  | cleanup zone key =>
      rcases zone with - | zone
      · exact rooted_of_no_zones (congrArg Cache.zones (cache_removeAll w))
      · rcases key with - | key
        · exact h.removeZone nested zone
        · exact h.removeEntry nested zone key

/-- Whatever is done, a zone is in memory only while there is a directory for its file. -/
theorem rooted_after {fresh : Cache} (hzones : fresh.zones = ∅) (nested : w.files.Nested)
    (h : w.Rooted) (history : List Event) : (after fresh w history).Rooted := by
  induction history generalizing w with
  | nil => exact h
  | cons event rest ih =>
      cases event with
      | operation o => exact ih (nested_run nested o) (h.run nested o)
      | reopen => exact ih (nested_flushAll nested) (rooted_of_no_zones hzones)

/-! ## Which changes succeed -/

/-- A zone is opened in the directory that is there or is made. -/
theorem openZone_of_rooted (h : w.Rooted) (hlocation : w.cache.location = some path)
    (zone : String) :
    (∃ w', w.openZone zone = (.ok (w.view zone), w') ∧ w'.cache.location = some path ∧
        w.files.makeDirectories path = (w'.files, none)) ∨
      (∃ e w', w.openZone zone = (.error e, w')) ∧ ¬Opens w.files path := by
  rcases hget : w.cache.zones.get? zone with - | z
  · rcases hmade : w.files.makeDirectories path with ⟨t, - | cause⟩
    · left
      have hview : w.view zone = loadZone t (zonePath path zone) := by
        rw [view, hget, hlocation]
        exact opened_of_made hmade
      refine ⟨{ w with files := t }.hold zone (w.view zone), ?_, hlocation, rfl⟩
      simp [Workspace.openZone, hget, hlocation, hmade, hview]
    · right
      refine ⟨⟨.directory path cause, { w with files := t }, ?_⟩, not_opens hmade⟩
      simp [Workspace.openZone, hget, hlocation, hmade]
  · left
    refine ⟨w, ?_, hlocation, h path zone z hlocation hget⟩
    simp [Workspace.openZone, hget, view_of_memory hget]

theorem update_ok_iff (hlocation : w.cache.location = some path) {z : Zone} :
    (w.update zone z).1 = .ok () ↔ Writable w.files path zone := by
  rw [← dump_ok_iff (z := z), update, hlocation]
  dsimp only
  rcases dump w.files (zonePath path zone) z with ⟨files, cause | ⟨⟩⟩ <;> simp

/-- A write succeeds if the file of the zone can be written. -/
theorem write_ok_iff (h : w.Rooted) (hlocation : w.cache.location = some path)
    {key : String} {value : Json} :
    (w.write zone key value).1 = .ok () ↔ Takes w.files path zone := by
  rcases openZone_of_rooted h hlocation zone with
    ⟨w', hopen, hlocation', made⟩ | ⟨⟨e, w', hopen⟩, hnot⟩
  · rw [write_of_openZone hopen, update_ok_iff hlocation', takes_iff made]
  · rw [write_of_error hopen]
    exact iff_of_false (by simp) fun takes => hnot takes.opens

/-- So does the removal of an entry; if there is none, the directory will do. -/
theorem removeEntry_ok_iff (h : w.Rooted) (hlocation : w.cache.location = some path)
    {key : String} :
    (w.removeEntry zone key).1 = .ok () ↔
      if (w.view zone).has key then Takes w.files path zone else Opens w.files path := by
  rcases openZone_of_rooted h hlocation zone with
    ⟨w', hopen, hlocation', made⟩ | ⟨⟨e, w', hopen⟩, hnot⟩
  · rw [removeEntry_of_openZone hopen]
    split
    case isTrue => rw [update_ok_iff hlocation', takes_iff made]
    case isFalse => exact iff_of_true rfl ⟨w'.files, made⟩
  · rw [removeEntry_of_error hopen]
    apply iff_of_false (by simp)
    split
    case isTrue => exact fun takes => hnot takes.opens
    case isFalse => exact hnot

end Workspace

end Testbed.Cache
