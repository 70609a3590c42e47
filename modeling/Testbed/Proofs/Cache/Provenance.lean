import Testbed.Proofs.Cache.History
import Testbed.Proofs.Cache.Slot
import Testbed.Proofs.FileTree.Directories

/-!
# Where entries come from

What holds of every entry that is written holds of every entry that can be read: an entry in
memory or in a file of the cache was written under its zone and its key.  This asks nothing of the
files: the tree need not be well-formed, any operation may fail, and the directory may be any.
-/

namespace Testbed.Cache

open FileTree (Location FilesFrom)

/-- All entries of a zone have a property of their key and their text. -/
def Zone.Holds (Q : String → String → Prop) (z : Zone) : Prop :=
  ∀ key text, z.entries.get? key = some text → Q key text

section Zone

variable {Q : String → String → Prop}

theorem Zone.holds_empty : Zone.Holds Q {} := by
  intro key text h
  cases h

theorem Zone.Holds.write {z : Zone} (h : z.Holds Q) {key : String} {value : Json}
    (hvalue : Q key value.compact) : (z.write key value).Holds Q := by
  intro other text htext
  have hget : (z.entries.insert key value.compact).get? other = some text := htext
  rw [Table.get?_insert] at hget
  split at hget
  case isTrue hsame =>
      cases hget
      rw [hsame]
      exact hvalue
  case isFalse => exact h other text hget

theorem Zone.Holds.erase {z : Zone} (h : z.Holds Q) (key : String) : (z.erase key).Holds Q := by
  intro other text htext
  have hget : (z.entries.erase key).get? other = some text := htext
  rw [Table.get?_erase] at hget
  split at hget
  case isTrue => cases hget
  case isFalse => exact h other text hget

end Zone

/-- All entries in the files of a directory have a property of their zone, key and text. -/
def FilesHold (Q : String → String → String → Prop) (location : Path) (t : FileTree) : Prop :=
  ∀ zone, (stored t (slot (t.place location) zone)).Holds (Q zone)

section Files

variable {Q : String → String → String → Prop} {location : Path} {t t' : FileTree}

theorem FilesHold.of_filesFrom (h : FilesHold Q location t)
    (hfiles : FilesFrom (fun _ => False) t t') : FilesHold Q location t' := by
  intro zone
  rw [FileTree.place_congr hfiles.current]
  rcases stored_of_filesFrom hfiles (slot (t.place location) zone) id with hkept | hgone
  · rw [hkept]
    exact h zone
  · rw [hgone]
    exact Zone.holds_empty

theorem FilesHold.dump (h : FilesHold Q location t) {zone : String} {z : Zone}
    (hz : z.Holds (Q zone)) : FilesHold Q location (dump t (zonePath location zone) z).1 := by
  intro other
  rw [FileTree.place_congr (filesFrom_dump t location zone z rfl).current]
  rcases stored_dump t location zone z rfl other with hkept | hgone | ⟨rfl, hwritten⟩
  · rw [hkept]
    exact h other
  · rw [hgone]
    exact Zone.holds_empty
  · rw [hwritten]
    exact hz

theorem FilesHold.loadZone (h : FilesHold Q location t) (zone : String) :
    (loadZone t (zonePath location zone)).Holds (Q zone) := by
  rcases loadZone_cases t location zone with hempty | hstored
  · rw [hempty]
    exact Zone.holds_empty
  · rw [hstored]
    exact h zone

theorem FilesHold.removeFile (h : FilesHold Q location t) {p : Path}
    (hremoved : t.removeFile p = .ok t') : FilesHold Q location t' := by
  obtain ⟨-, -, rfl⟩ := FileTree.removeFile_ok hremoved
  exact h.of_filesFrom (FileTree.filesFrom_removeAt _ t _)

end Files

/-- No zone has entries in the files of a directory. -/
def Unused (location : Path) (t : FileTree) : Prop :=
  ∀ zone, (stored t (slot (t.place location) zone)).entries = ∅

/-- No zone has entries where no file is listed. -/
theorem unused_of_nodes {location : Path} {t : FileTree}
    (h : ∀ entry ∈ t.nodes, entry.1.dropLast = t.place location → entry.2 = .directory) :
    Unused location t := by
  intro zone
  rw [stored_of_nodes]
  intro entry hentry hslot
  apply h entry hentry
  rw [hslot, slot, List.dropLast_concat]

theorem Unused.filesHold {location : Path} {t : FileTree} (h : Unused location t)
    (Q : String → String → String → Prop) : FilesHold Q location t := by
  intro zone key text hget
  rw [h zone] at hget
  cases hget

namespace Workspace

/-- All entries of a cache, in memory and in its files, have a property. -/
structure Holds (Q : String → String → String → Prop) (directory : Option Path) (w : Workspace) :
    Prop where
  location : w.cache.location = directory
  memory : ∀ zone z, w.cache.zones.get? zone = some z → z.Holds (Q zone)
  files : ∀ path, directory = some path → FilesHold Q path w.files

variable {Q : String → String → String → Prop} {directory : Option Path} {w : Workspace}

theorem holds_ofSetup {s : Setup} {t : FileTree}
    (unused : s.persistent = true → Unused s.directory t)
    (Q : String → String → String → Prop) : Holds Q (ofSetup s).location ⟨ofSetup s, t⟩ where
  location := rfl
  memory := by
    intro zone z hget
    cases hget
  files := by
    intro path hpath
    cases hpersistent : s.persistent with
    | true =>
        simp only [ofSetup, hpersistent, if_true, Option.some.injEq] at hpath
        rw [← hpath]
        exact (unused hpersistent).filesHold Q
    | false => simp [ofSetup, hpersistent] at hpath

theorem Holds.imp {Q' : String → String → String → Prop} (h : w.Holds Q directory)
    (himp : ∀ zone key text, Q zone key text → Q' zone key text) : w.Holds Q' directory where
  location := h.location
  memory := fun zone z hget key text htext =>
    himp zone key text (h.memory zone z hget key text htext)
  files := fun path hpath zone key text htext =>
    himp zone key text (h.files path hpath zone key text htext)

theorem Holds.hold (h : w.Holds Q directory) {files : FileTree} {zone : String} {z : Zone}
    (hz : z.Holds (Q zone)) (hfiles : ∀ path, directory = some path → FilesHold Q path files) :
    ({ w with files }.hold zone z).Holds Q directory where
  location := h.location
  memory := by
    intro other z' hget
    have hget' : (w.cache.zones.insert zone z).get? other = some z' := hget
    rw [Table.get?_insert] at hget'
    split at hget'
    case isTrue hsame =>
        cases hget'
        rw [hsame]
        exact hz
    case isFalse => exact h.memory other z' hget'
  files := hfiles

theorem Holds.openZone (h : w.Holds Q directory) (zone : String) :
    (∃ z w', w.openZone zone = (.ok z, w') ∧ z.Holds (Q zone) ∧ w'.Holds Q directory) ∨
      ∃ e w', w.openZone zone = (.error e, w') ∧ w'.Holds Q directory := by
  cases hget : w.cache.zones.get? zone with
  | some z => exact Or.inl ⟨z, w, by simp [Workspace.openZone, hget], h.memory zone z hget, h⟩
  | none =>
      cases hdirectory : directory with
      | none =>
          subst hdirectory
          refine Or.inl ⟨{}, w.hold zone {}, ?_, Zone.holds_empty, ?_⟩
          · simp [Workspace.openZone, hget, h.location]
          · exact h.hold Zone.holds_empty (by simp)
      | some path =>
          subst hdirectory
          have hgrows := FileTree.grows_makeDirectories w.files path
          rcases hmade : w.files.makeDirectories path with ⟨files, failure⟩
          rw [hmade] at hgrows
          have hfiles := (h.files path rfl).of_filesFrom (hgrows.filesFrom _)
          have hall : ∀ path', some path = some path' → FilesHold Q path' files := by
            rintro path' ⟨⟩
            exact hfiles
          cases failure with
          | some cause =>
              refine Or.inr ⟨.directory path cause, { w with files }, ?_,
                h.location, h.memory, hall⟩
              simp [Workspace.openZone, hget, h.location, hmade]
          | none =>
              have hload := hfiles.loadZone zone
              refine Or.inl ⟨loadZone files (zonePath path zone), _, ?_, hload, h.hold hload hall⟩
              simp [Workspace.openZone, hget, h.location, hmade]

theorem Holds.openZone_snd (h : w.Holds Q directory) (zone : String) :
    (w.openZone zone).2.Holds Q directory := by
  rcases h.openZone zone with ⟨z, w', hopen, -, hafter⟩ | ⟨e, w', hopen, hafter⟩
  · rw [hopen]
    exact hafter
  · rw [hopen]
    exact hafter

theorem Holds.update (h : w.Holds Q directory) {zone : String} {z : Zone} (hz : z.Holds (Q zone)) :
    (w.update zone z).2.Holds Q directory := by
  unfold Workspace.update
  cases hdirectory : directory with
  | none =>
      subst hdirectory
      rw [h.location]
      exact h.hold hz (by simp)
  | some path =>
      subst hdirectory
      rw [h.location]
      dsimp only
      have hfiles := (h.files path rfl).dump hz
      rcases hdump : dump w.files (zonePath path zone) z with ⟨files, result⟩
      rw [hdump] at hfiles
      have hall : ∀ path', some path = some path' → FilesHold Q path' files := by
        rintro path' ⟨⟩
        exact hfiles
      cases result with
      | ok _ => exact h.hold hz hall
      | error cause => exact ⟨h.location, h.memory, hall⟩

/-- What is read was written. -/
theorem Holds.read_fst (h : w.Holds Q directory) {α : Type} {decode : Json.Decoder α}
    {zone key : String} {value : α} (hread : (w.read decode zone key).1 = some value) :
    ∃ text, Q zone key text ∧ Json.decodeText? decode text = some value := by
  rcases h.openZone zone with ⟨z, w', hopen, hz, -⟩ | ⟨e, w', hopen, -⟩
  · rw [read_of_openZone hopen] at hread
    obtain ⟨text, htext, hvalue⟩ := Option.bind_eq_some_iff.mp hread
    exact ⟨text, hz key text htext, hvalue⟩
  · rw [read_of_error hopen] at hread
    cases hread

theorem Holds.write (h : w.Holds Q directory) {zone key : String} {value : Json}
    (hvalue : Q zone key value.compact) : (w.write zone key value).2.Holds Q directory := by
  rcases h.openZone zone with ⟨z, w', hopen, hz, hafter⟩ | ⟨e, w', hopen, hafter⟩
  · rw [write_of_openZone hopen]
    exact hafter.update (hz.write hvalue)
  · rw [write_of_error hopen]
    exact hafter

theorem Holds.removeEntry (h : w.Holds Q directory) (zone key : String) :
    (w.removeEntry zone key).2.Holds Q directory := by
  rcases h.openZone zone with ⟨z, w', hopen, hz, hafter⟩ | ⟨e, w', hopen, hafter⟩
  · rw [removeEntry_of_openZone hopen]
    split
    case isTrue => exact hafter.update (hz.erase key)
    case isFalse => exact hafter
  · rw [removeEntry_of_error hopen]
    exact hafter

theorem Holds.flush (h : w.Holds Q directory) {path : Path} (hpath : directory = some path)
    (files : FileTree) (zone : String) (z : Zone) (hget : w.cache.zones.get? zone = some z)
    (hfiles : FilesHold Q path files) :
    FilesHold Q path (Workspace.flush files w.cache.location zone z) := by
  rw [h.location, hpath]
  exact hfiles.dump (h.memory zone z hget)

theorem Holds.flushZone (h : w.Holds Q directory) {path : Path} (hpath : directory = some path)
    (zone : String) : FilesHold Q path (w.flushZone zone) :=
  flushZone_preserves (h.flush hpath) (h.files path hpath) zone

theorem Holds.flushAll (h : w.Holds Q directory) {path : Path} (hpath : directory = some path) :
    FilesHold Q path w.flushAll :=
  flushAll_preserves (h.flush hpath) (h.files path hpath)

theorem Holds.removeZone (h : w.Holds Q directory) (zone : String) :
    (w.removeZone zone).2.Holds Q directory := by
  refine ⟨by rw [cache_removeZone]; exact h.location, ?_, ?_⟩
  · intro other z hget
    rw [cache_removeZone] at hget
    rw [Table.get?_erase] at hget
    split at hget
    case isTrue => cases hget
    case isFalse => exact h.memory other z hget
  · intro path hpath
    have hfiles := h.flushZone hpath zone
    rw [removeZone_of_persistent (h.location.trans hpath)]
    dsimp only
    split
    case isTrue =>
        split
        case h_1 files hremoved => exact hfiles.removeFile hremoved
        case h_2 => exact hfiles
    case isFalse => exact hfiles

theorem Holds.removeAll (h : w.Holds Q directory) : w.removeAll.2.Holds Q directory := by
  refine ⟨by rw [cache_removeAll]; exact h.location, ?_, ?_⟩
  · intro zone z hget
    rw [cache_removeAll] at hget
    cases hget
  · intro path hpath
    have hfiles := h.flushAll hpath
    unfold Workspace.removeAll
    dsimp only
    generalize w.flushAll = flushed at hfiles
    rw [h.location, hpath]
    dsimp only
    split
    case isTrue =>
        have hremoved := hfiles.of_filesFrom (FileTree.filesFrom_removeDirectory _ flushed path)
        split
        case h_1 heq =>
            rw [heq] at hremoved
            exact hremoved
        case h_2 heq =>
            rw [heq] at hremoved
            exact hremoved
    case isFalse => exact hfiles

theorem Holds.cleanup (h : w.Holds Q directory) (zone key : Option String) :
    (w.cleanup zone key).2.Holds Q directory := by
  cases zone with
  | none => exact h.removeAll
  | some zone =>
      cases key with
      | none => exact h.removeZone zone
      | some key => exact h.removeEntry zone key

theorem Holds.reopen (h : w.Holds Q directory) {fresh : Cache}
    (hlocation : fresh.location = directory) (hzones : fresh.zones = ∅) :
    (w.reopen fresh).Holds Q directory where
  location := hlocation
  memory := by
    intro zone z hget
    have hnone : fresh.zones.get? zone = some z := hget
    rw [hzones] at hnone
    cases hnone
  files := fun _ hpath => h.flushAll hpath

end Workspace

end Testbed.Cache
