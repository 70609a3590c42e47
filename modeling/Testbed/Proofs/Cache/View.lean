import Testbed.Proofs.Cache.History
import Testbed.Proofs.Cache.Slot
import Testbed.Proofs.FileTree.Retry

/-!
# What a cache shows

A zone in memory is shown as it is there, and any other zone as it would be loaded if it were used
now.  Reading a zone reads what is shown of it.  So it can be said what an operation changes without
saying what is in memory: bringing a zone into memory changes nothing, not even where directories
are made on the way or cannot be made, and a write changes one entry at most, whether it succeeds or
fails.
-/

namespace Testbed.Cache

open FileTree (Location Spares)

/-! ## Zones that are not in memory -/

/-- A zone as it would be loaded if it were used now. -/
def opened (files : FileTree) (location : Path) (zone : String) : Zone :=
  match files.makeDirectories location with
  | (_, some _) => {}
  | (files, none) => loadZone files (zonePath location zone)

section Opened

variable {t : FileTree} {location : Path} {zone other : String}

theorem opened_of_failure (h : (t.makeDirectories location).2 ≠ none) :
    opened t location zone = {} := by
  unfold opened
  split
  case h_1 => rfl
  case h_2 hmade =>
      rw [hmade] at h
      exact absurd rfl h

theorem opened_of_made {t' : FileTree} (h : t.makeDirectories location = (t', none)) :
    opened t location zone = loadZone t' (zonePath location zone) := by
  rw [opened, h]

/-- Making the directory of the cache does not change what would be loaded, even if it fails. -/
theorem opened_makeDirectories (nested : t.Nested) (location : Path) (zone : String) :
    opened (t.makeDirectories location).1 location zone = opened t location zone := by
  rcases hmade : t.makeDirectories location with ⟨t', - | cause⟩
  · rw [opened_of_made hmade]
    exact opened_of_made (FileTree.makeDirectories_again hmade)
  · have hfailed : (t.makeDirectories location).2 ≠ none := by simp [hmade]
    rw [opened_of_failure hfailed]
    exact opened_of_failure (FileTree.makeDirectories_of_failure nested hmade)

/-- Nothing else is loaded than what is stored. -/
theorem opened_cases (t : FileTree) (location : Path) (zone : String) :
    opened t location zone = {} ∨
      opened t location zone = stored t (slot (t.place location) zone) := by
  have hgrows := FileTree.grows_makeDirectories t location
  rcases hmade : t.makeDirectories location with ⟨t', - | cause⟩
  · rw [hmade] at hgrows
    rw [opened_of_made hmade, ← stored_of_grows hgrows, ← FileTree.place_congr hgrows.current]
    exact loadZone_cases t' location zone
  · exact Or.inl (opened_of_failure (by simp [hmade]))

/-- A zone whose file can be reached is opened as it is stored. -/
theorem opened_of_locate
    (h : t.locate (zonePath location zone) = .ok (slot (t.place location) zone)) :
    opened t location zone = stored t (slot (t.place location) zone) := by
  rw [opened_of_made (FileTree.makeDirectories_of_locate (FileName.plain_ofZone zone) h),
    loadZone, FileTree.readBytes, FileTree.lookup, h, stored]
  dsimp only
  rcases t.node? (slot (t.place location) zone) with - | (contents | -) <;> rfl

/-- A zone would be loaded as before if there is a way into the directory that is still there, and
its slot is as before. -/
theorem opened_of_spares {t' : FileTree} {touched : Location → Prop} (hspares : Spares touched t t')
    {name : String} (plain : Path.Plain name) {l : Location}
    (hlocate : t.locate (location.join name) = .ok l)
    (hslot : t'.node? (slot (t.place location) zone) = t.node? (slot (t.place location) zone)) :
    opened t' location zone = opened t location zone := by
  rw [opened_of_made (FileTree.makeDirectories_of_locate plain hlocate),
    opened_of_made (FileTree.makeDirectories_of_locate plain (hspares.locate hlocate))]
  have hpath : t'.locate (zonePath location zone) = t.locate (zonePath location zone) :=
    hspares.locate_join plain hlocate (FileName.plain_ofZone zone)
  have hlookup : t'.lookup (zonePath location zone) = t.lookup (zonePath location zone) := by
    unfold FileTree.lookup
    rw [hpath]
    rcases hfound : t.locate (zonePath location zone) with e | l
    · rfl
    · have hl := FileTree.place_of_locate hfound
      rw [place_zonePath] at hl
      dsimp only
      rw [hl, hslot]
  rw [loadZone, loadZone, FileTree.readBytes, FileTree.readBytes, hlookup]

/-- Writing the file of a zone does nothing, unless the path leads into the directory. -/
theorem dump_unchanged_or_located (t : FileTree) (location : Path) (zone : String) (z : Zone) :
    (dump t (zonePath location zone) z).1 = t ∨
      ∃ l, t.locate (location.join (FileName.ofZone zone ++ draftStamp)) = .ok l := by
  unfold dump
  split
  case h_1 => exact Or.inl rfl
  case h_2 drafted hdrafted =>
      obtain ⟨hlocate, -⟩ := FileTree.write_ok hdrafted
      rw [zonePath_append] at hlocate
      exact Or.inr ⟨_, hlocate⟩

theorem opened_dump_of_slot (nested : t.Nested) (location : Path) (zone : String) (z : Zone)
    (hslot : (dump t (zonePath location zone) z).1.node? (slot (t.place location) other) =
      t.node? (slot (t.place location) other)) :
    opened (dump t (zonePath location zone) z).1 location other = opened t location other := by
  rcases dump_unchanged_or_located t location zone z with hsame | ⟨l, hlocate⟩
  · rw [hsame]
  · exact opened_of_spares (spares_dump nested location zone z rfl).1 (FileName.plain_draft zone)
      hlocate hslot

/-- Writing the file of a zone does not change what would be loaded of another. -/
theorem opened_dump (nested : t.Nested) (location : Path) {zone other : String} (z : Zone)
    (hne : other ≠ zone) :
    opened (dump t (zonePath location zone) z).1 location other = opened t location other := by
  apply opened_dump_of_slot nested
  exact (spares_dump nested location zone z rfl).1.untouched _ (not_written_slot hne)

/-- A zone whose file has been written would be loaded as it was written, or as before if that has
failed. -/
theorem opened_dump_self (nested : t.Nested) (location : Path) (zone : String) (z : Zone) :
    opened (dump t (zonePath location zone) z).1 location zone =
      match (dump t (zonePath location zone) z).2 with
      | .ok () => z
      | .error _ => opened t location zone := by
  have hslot := node?_slot_dump t location zone z rfl
  obtain ⟨hspares, hlocate⟩ := spares_dump nested location zone z rfl
  rcases hresult : (dump t (zonePath location zone) z).2 with e | ⟨⟩
  · rw [hresult] at hslot
    exact opened_dump_of_slot nested location zone z hslot
  · rw [hresult] at hslot
    have hplace := FileTree.place_congr hspares.current location
    have hfound := hlocate hresult
    rw [← hplace] at hfound hslot
    exact (opened_of_locate hfound).trans (stored_of_file hslot)

end Opened

/-! ## The cache -/

namespace Workspace

/-- What a cache shows of a zone. -/
def view (w : Workspace) (zone : String) : Zone :=
  match w.cache.zones.get? zone, w.cache.location with
  | some z, _ => z
  | none, none => {}
  | none, some location => opened w.files location zone

variable {w : Workspace} {zone : String}

theorem view_of_memory {z : Zone} (h : w.cache.zones.get? zone = some z) : w.view zone = z := by
  rw [view, h]

theorem view_hold (w : Workspace) (zone : String) (z : Zone) (other : String) :
    (w.hold zone z).view other = if other = zone then z else w.view other := by
  have hget : (w.hold zone z).cache.zones.get? other =
      if other = zone then some z else w.cache.zones.get? other :=
    Table.get?_insert w.cache.zones zone z other
  by_cases hzone : other = zone
  · rw [if_pos hzone] at hget ⊢
    exact view_of_memory hget
  · rw [if_neg hzone] at hget ⊢
    rw [view, view, hget]
    rfl

/-- A zone that is brought into memory as it is shown is shown as before. -/
theorem view_hold_self {z : Zone} (h : w.view zone = z) : (w.hold zone z).view = w.view := by
  funext other
  rw [view_hold]
  split
  case isTrue hzone => rw [hzone, h]
  case isFalse => rfl

/-- In changed files a zone is shown as before if the same would be loaded. -/
theorem view_of_opened {files : FileTree}
    (hsame : ∀ location, w.cache.location = some location →
      opened files location zone = opened w.files location zone) :
    Workspace.view { w with files } zone = w.view zone := by
  rw [view, view]
  cases w.cache.zones.get? zone with
  | some z => rfl
  | none =>
      cases hlocation : w.cache.location with
      | none => rfl
      | some location => exact hsame location hlocation

/-- A zone is opened as it is shown, and then it is in memory; if it cannot be opened it is shown as
empty.  Opening changes nothing that is shown. -/
theorem view_openZone (nested : w.files.Nested) (zone : String) :
    (∃ w', w.openZone zone = (.ok (w.view zone), w') ∧ w'.files.Nested ∧ w'.view = w.view ∧
      w'.cache.zones.get? zone = some (w.view zone)) ∨
    ∃ e w', w.openZone zone = (.error e, w') ∧ w'.files.Nested ∧ w'.view = w.view ∧
      w.view zone = {} := by
  cases hget : w.cache.zones.get? zone with
  | some z =>
      rw [view_of_memory hget]
      exact Or.inl ⟨w, by simp [openZone, hget], nested, rfl, hget⟩
  | none =>
      cases hlocation : w.cache.location with
      | none =>
          have hview : w.view zone = {} := by rw [view, hget, hlocation]
          rw [hview]
          refine Or.inl ⟨w.hold zone {}, ?_, nested, view_hold_self hview, ?_⟩
          · simp [openZone, hget, hlocation]
          · exact Table.get?_insert_self w.cache.zones zone {}
      | some location =>
          have hgrows := FileTree.grows_makeDirectories w.files location
          have hopened := opened_makeDirectories nested location
          rcases hmade : w.files.makeDirectories location with ⟨files, failure⟩
          rw [hmade] at hgrows hopened
          have hfiles : Workspace.view { w with files } = w.view := by
            funext other
            apply view_of_opened
            intro there hthere
            rw [hlocation] at hthere
            cases hthere
            exact hopened other
          have hview : w.view zone = opened w.files location zone := by rw [view, hget, hlocation]
          cases failure with
          | some cause =>
              refine Or.inr ⟨.directory location cause, { w with files }, ?_,
                hgrows.nested nested, hfiles, ?_⟩
              · simp [openZone, hget, hlocation, hmade]
              · rw [hview]
                exact opened_of_failure (by simp [hmade])
          | none =>
              rw [opened_of_made hmade] at hview
              rw [hview]
              refine Or.inl ⟨{ w with files }.hold zone (loadZone files (zonePath location zone)),
                ?_, hgrows.nested nested, ?_, Table.get?_insert_self w.cache.zones zone _⟩
              · simp [openZone, hget, hlocation, hmade]
              · rw [view_hold_self (by rw [hfiles, hview]), hfiles]

theorem view_openZone_snd (nested : w.files.Nested) (zone : String) :
    (w.openZone zone).2.files.Nested ∧ (w.openZone zone).2.view = w.view := by
  rcases view_openZone nested zone with
    ⟨w', hopen, hnested, hview, -⟩ | ⟨e, w', hopen, hnested, hview, -⟩
  · rw [hopen]
    exact ⟨hnested, hview⟩
  · rw [hopen]
    exact ⟨hnested, hview⟩

/-- Reading reads what is shown. -/
theorem read_fst (nested : w.files.Nested) {α : Type} (decode : Json.Decoder α)
    (zone key : String) : (w.read decode zone key).1 = (w.view zone).read decode key := by
  rcases view_openZone nested zone with ⟨w', hopen, -⟩ | ⟨e, w', hopen, -, -, hempty⟩
  · rw [read_of_openZone hopen]
  · rw [read_of_error hopen, hempty]
    rfl

/-- Putting a zone in place of the one in memory changes what is shown of it, and nothing if its
file cannot be written. -/
theorem view_update (nested : w.files.Nested) {z₀ : Zone}
    (held : w.cache.zones.get? zone = some z₀) (z : Zone) :
    (w.update zone z).2.files.Nested ∧
      ((∃ cause, (w.update zone z).1 = .error (.store zone cause)) ∧
          (w.update zone z).2.view = w.view ∨
        (w.update zone z).1 = .ok () ∧
          ∀ other, (w.update zone z).2.view other = if other = zone then z else w.view other) := by
  unfold update
  cases hlocation : w.cache.location with
  | none => exact ⟨nested, Or.inr ⟨rfl, view_hold w zone z⟩⟩
  | some location =>
      dsimp only
      have hnested := (spares_dump nested location zone z rfl).1.nested nested
      have hopened : ∀ other, other ≠ zone →
          opened (dump w.files (zonePath location zone) z).1 location other =
            opened w.files location other := fun _ => opened_dump nested location z
      rcases hdump : dump w.files (zonePath location zone) z with ⟨files, result⟩
      rw [hdump] at hnested hopened
      have hothers : ∀ other, other ≠ zone →
          Workspace.view { w with files } other = w.view other := by
        intro other hne
        apply view_of_opened
        intro there hthere
        rw [hlocation] at hthere
        cases hthere
        exact hopened other hne
      cases result with
      | ok _ =>
          refine ⟨hnested, Or.inr ⟨rfl, fun other => ?_⟩⟩
          rw [view_hold]
          split
          case isTrue => rfl
          case isFalse hne => exact hothers other hne
      | error cause =>
          refine ⟨hnested, Or.inl ⟨⟨cause, rfl⟩, ?_⟩⟩
          funext other
          by_cases hzone : other = zone
          · rw [hzone, view_of_memory held]
            exact view_of_memory held
          · exact hothers other hzone

/-- A write changes the entry that it is about, and nothing if it fails. -/
theorem view_write (nested : w.files.Nested) (zone key : String) (value : Json) :
    (w.write zone key value).2.files.Nested ∧
      ((w.write zone key value).1 ≠ .ok () ∧ (w.write zone key value).2.view = w.view ∨
        (w.write zone key value).1 = .ok () ∧
          ∀ other, (w.write zone key value).2.view other =
            if other = zone then (w.view zone).write key value else w.view other) := by
  rcases view_openZone nested zone with
    ⟨w', hopen, hnested, hview, hheld⟩ | ⟨e, w', hopen, hnested, hview, -⟩
  · rw [write_of_openZone hopen, ← hview]
    rw [← hview] at hheld
    obtain ⟨hafter, ⟨⟨cause, hfailed⟩, hsame⟩ | hdone⟩ :=
      view_update hnested hheld ((w'.view zone).write key value)
    · exact ⟨hafter, Or.inl ⟨by simp [hfailed], hsame⟩⟩
    · exact ⟨hafter, Or.inr hdone⟩
  · rw [write_of_error hopen]
    exact ⟨hnested, Or.inl ⟨by simp, hview⟩⟩

/-- The removal of an entry changes nothing else, and nothing if it fails. -/
theorem view_removeEntry (nested : w.files.Nested) (zone key : String) :
    (w.removeEntry zone key).2.files.Nested ∧
      ((w.removeEntry zone key).1 ≠ .ok () ∧ (w.removeEntry zone key).2.view = w.view ∨
        (w.removeEntry zone key).1 = .ok () ∧
          (w.removeEntry zone key).2.view =
            Operation.effect w.view (.cleanup (some zone) (some key))) := by
  rcases view_openZone nested zone with
    ⟨w', hopen, hnested, hview, hheld⟩ | ⟨e, w', hopen, hnested, hview, -⟩
  · rw [removeEntry_of_openZone hopen, Operation.effect]
    split
    case isTrue hhas =>
        rw [← hview] at hheld ⊢
        obtain ⟨hafter, ⟨⟨cause, hfailed⟩, hsame⟩ | ⟨hdone, hset⟩⟩ :=
          view_update hnested hheld ((w'.view zone).erase key)
        · exact ⟨hafter, Or.inl ⟨by simp [hfailed], hsame⟩⟩
        · exact ⟨hafter, Or.inr ⟨hdone, funext hset⟩⟩
    case isFalse => exact ⟨hnested, Or.inr ⟨rfl, hview⟩⟩
  · rw [removeEntry_of_error hopen]
    exact ⟨hnested, Or.inl ⟨by simp, hview⟩⟩

/-! ## Everything stays in a directory -/

theorem nested_flush {t : FileTree} (nested : t.Nested) (location : Option Path) (zone : String)
    (z : Zone) : (flush t location zone z).Nested := by
  cases location with
  | none => exact nested
  | some location => exact (spares_dump nested location zone z rfl).1.nested nested

theorem nested_flushZone (nested : w.files.Nested) (zone : String) :
    (w.flushZone zone).Nested :=
  flushZone_preserves (P := FileTree.Nested)
    (fun _ zone z _ h => nested_flush h w.cache.location zone z) nested zone

theorem nested_flushAll (nested : w.files.Nested) : w.flushAll.Nested :=
  flushAll_preserves (P := FileTree.Nested)
    (fun _ zone z _ h => nested_flush h w.cache.location zone z) nested

theorem nested_removeEntry (nested : w.files.Nested) (zone key : String) :
    (w.removeEntry zone key).2.files.Nested :=
  (view_removeEntry nested zone key).1

theorem nested_removeZone (nested : w.files.Nested) (zone : String) :
    (w.removeZone zone).2.files.Nested := by
  have hflushed := nested_flushZone nested zone
  cases hlocation : w.cache.location with
  | none =>
      unfold removeZone
      rw [hlocation]
      rw [flushZone, hlocation] at hflushed
      exact hflushed
  | some location =>
      rw [removeZone_of_persistent hlocation]
      dsimp only
      split
      case isTrue =>
          split
          case h_1 hremoved => exact hflushed.removeFile hremoved
          case h_2 => exact hflushed
      case isFalse => exact hflushed

/-- There is no file of a zone that has been removed, or could not be. -/
theorem lookup_removeZone_ne_file (nested : w.files.Nested)
    {path : Path} (hlocation : w.cache.location = some path) (zone : String)
    (l : FileTree.Location) (contents : Text.Bytes) :
    (w.removeZone zone).2.files.lookup (zonePath path zone) ≠ .ok (l, .file contents) := by
  have hnested := nested_flushZone nested zone
  rw [removeZone_of_persistent hlocation]
  dsimp only
  generalize w.flushZone zone = flushed at hnested
  intro hlookup
  split at hlookup
  case isTrue =>
      split at hlookup
      case h_1 files hremoved => exact FileTree.lookup_of_removeFile hnested hremoved hlookup
      case h_2 hfailed =>
          rw [FileTree.removeFile, hlookup] at hfailed
          cases hfailed
  case isFalse hnot =>
      apply hnot
      simp [FileTree.exists?, hlookup, Except.isOk, Except.toBool]

theorem nested_removeAll (nested : w.files.Nested) : w.removeAll.2.files.Nested := by
  have hflushed := nested_flushAll nested
  unfold removeAll
  dsimp only
  split
  case h_1 => exact hflushed
  case h_2 location _ =>
      have hremoved := hflushed.removeDirectory location
      split
      case isTrue =>
          split
          case h_1 heq =>
              rw [heq] at hremoved
              exact hremoved
          case h_2 heq =>
              rw [heq] at hremoved
              exact hremoved
      case isFalse => exact hflushed

theorem nested_cleanup (nested : w.files.Nested) (zone key : Option String) :
    (w.cleanup zone key).2.files.Nested := by
  cases zone with
  | none => exact nested_removeAll nested
  | some zone =>
      cases key with
      | none => exact nested_removeZone nested zone
      | some key => exact nested_removeEntry nested zone key

end Workspace

end Testbed.Cache
