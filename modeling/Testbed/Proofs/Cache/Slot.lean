import Testbed.Cache.Basic
import Testbed.Proofs.Cache.FileName
import Testbed.Proofs.Cache.Zone
import Testbed.Proofs.FileTree.Change

/-!
# The files of a cache

The file of a zone has a slot in the directory of the cache, and its draft has one beside it.  The
slots of different zones are different, and no draft is in the slot of a zone, so writing the file
of a zone leaves all other zones as they are stored, whether it succeeds or fails on the way.
-/

namespace Testbed.Cache

open FileTree (Location FilesFrom Spares Proper)

/-- Where the file of a zone is, in a directory that has a place. -/
def slot (base : Location) (zone : String) : Location := base ++ [FileName.ofZone zone]

/-- Where the draft of a zone's file is. -/
def draftSlot (base : Location) (zone : String) : Location :=
  base ++ [FileName.ofZone zone ++ draftStamp]

/-- The zone that is stored at a location; what holds no zone counts as an empty one. -/
def stored (t : FileTree) (location : Location) : Zone :=
  match t.node? location with
  | some (.file contents) => (Zone.ofBytes? contents).getD {}
  | _ => {}

variable {base : Location} {zone other : String}

theorem slot_injective (h : slot base zone = slot base other) : zone = other := by
  rw [slot, slot, List.append_cancel_left_eq, List.cons.injEq] at h
  exact FileName.ofZone_injective h.1

theorem draftSlot_ne_slot (base : Location) (zone other : String) :
    draftSlot base zone ≠ slot base other := by
  intro h
  rw [draftSlot, slot, List.append_cancel_left_eq, List.cons.injEq] at h
  exact FileName.draft_ne_ofZone zone other h.1

theorem proper_slot (base : Location) (zone : String) : Proper (slot base zone) :=
  FileTree.proper_append (FileName.plain_ofZone zone) base

theorem proper_draftSlot (base : Location) (zone : String) : Proper (draftSlot base zone) :=
  FileTree.proper_append (FileName.plain_draft zone) base

theorem place_zonePath (t : FileTree) (location : Path) (zone : String) :
    t.place (zonePath location zone) = slot (t.place location) zone :=
  FileTree.place_join (FileName.plain_ofZone zone) location

theorem zonePath_append (location : Path) (zone : String) :
    zonePath location zone ++ draftStamp = location.join (FileName.ofZone zone ++ draftStamp) :=
  Path.join_append location _ _

theorem place_draft (t : FileTree) (location : Path) (zone : String) :
    t.place (zonePath location zone ++ draftStamp) = draftSlot (t.place location) zone := by
  rw [zonePath_append]
  exact FileTree.place_join (FileName.plain_draft zone) location

theorem stored_of_file {t : FileTree} {location : Location} {z : Zone}
    (h : t.node? location = some (.file z.toBytes)) : stored t location = z := by
  rw [stored, h]
  simp [Zone.ofBytes?_toBytes]

theorem stored_of_no_file {t : FileTree} {location : Location}
    (h : ∀ contents, t.node? location ≠ some (.file contents)) : stored t location = {} := by
  unfold stored
  split
  case h_1 contents hfile => exact absurd hfile (h contents)
  case h_2 => rfl

/-- Nothing is stored where no file is listed. -/
theorem stored_of_nodes {t : FileTree} {location : Location}
    (h : ∀ entry ∈ t.nodes, entry.1 = location → entry.2 = .directory) :
    stored t location = {} := by
  apply stored_of_no_file
  intro contents hfile
  have hproper : Proper location := FileTree.proper_of_node? hfile (by simp)
  simp only [FileTree.node?, hproper.1, hproper.2] at hfile
  obtain ⟨entry, hfind, hcontents⟩ := Option.map_eq_some_iff.mp hfile
  have hlocation : entry.1 = location := by simpa using List.find?_some hfind
  rw [h entry (List.mem_of_find?_eq_some hfind) hlocation] at hcontents
  cases hcontents

theorem stored_congr {t t' : FileTree} {location : Location}
    (h : t'.node? location = t.node? location) : stored t' location = stored t location := by
  rw [stored, stored, h]

/-- What a change has not touched is stored as before, or not any more. -/
theorem stored_of_filesFrom {touched : Location → Prop} {t t' : FileTree}
    (h : FilesFrom touched t t') (location : Location) (hnot : ¬touched location) :
    stored t' location = stored t location ∨ stored t' location = {} := by
  cases hnode : t'.node? location with
  | none => exact Or.inr (stored_of_no_file (by simp [hnode]))
  | some node =>
      cases node with
      | directory => exact Or.inr (stored_of_no_file (by simp [hnode]))
      | file contents =>
          rcases h.files location contents hnode with htouched | hearlier
          · exact absurd htouched hnot
          · exact Or.inl (stored_congr (hnode.trans hearlier.symm))

/-- New directories change nothing that is stored. -/
theorem stored_of_grows {t t' : FileTree} (h : FileTree.Grows t t') (location : Location) :
    stored t' location = stored t location := by
  by_cases hfile : ∃ contents, t.node? location = some (.file contents)
  · obtain ⟨contents, hfile⟩ := hfile
    exact stored_congr ((h.keeps location _ hfile).trans hfile.symm)
  · have hbefore : stored t location = {} :=
      stored_of_no_file fun contents hnode => hfile ⟨contents, hnode⟩
    have hafter : stored t' location = {} :=
      stored_of_no_file fun contents hnode => hfile ⟨contents, h.files location contents hnode⟩
    rw [hbefore, hafter]

/-! ## Reading a file -/

/-- A zone is loaded as it is stored, or it cannot be reached and counts as empty. -/
theorem loadZone_cases (t : FileTree) (location : Path) (zone : String) :
    loadZone t (zonePath location zone) = {} ∨
      loadZone t (zonePath location zone) = stored t (slot (t.place location) zone) := by
  unfold loadZone FileTree.readBytes
  cases hlookup : t.lookup (zonePath location zone) with
  | error e => exact Or.inl rfl
  | ok found =>
      obtain ⟨l, node⟩ := found
      obtain ⟨hlocate, hnode⟩ := FileTree.lookup_ok.mp hlookup
      have hl : l = slot (t.place location) zone := by
        rw [← place_zonePath]
        exact FileTree.place_of_locate hlocate
      subst hl
      cases node with
      | directory => exact Or.inl rfl
      | file contents =>
          right
          rw [stored, hnode]

/-! ## Writing a file -/

/-- How far the writing of a zone's file can come: nothing is done, or the draft is written into the
directory, which must be there, or it takes the place of the file besides. -/
theorem dump_cases (files : FileTree) (location : Path) (zone : String) (z : Zone)
    (hbase : files.place location = base) :
    (∃ e, dump files (zonePath location zone) z = (files, .error e)) ∨
    files.node? base = some .directory ∧ files.node? (draftSlot base zone) ≠ some .directory ∧
      let drafted := files.put (draftSlot base zone) (.file z.toBytes)
      ((∃ e, dump files (zonePath location zone) z = (drafted, .error e)) ∨
        drafted.locate (zonePath location zone) = .ok (slot base zone) ∧
          drafted.node? (slot base zone) ≠ some .directory ∧
          dump files (zonePath location zone) z =
            ((drafted.removeAt (draftSlot base zone)).put (slot base zone) (.file z.toBytes),
              .ok ())) := by
  subst hbase
  unfold dump
  split
  case h_1 e _ => exact Or.inl ⟨e, rfl⟩
  case h_2 drafted hdrafted =>
      right
      obtain ⟨hlocate, hfree, rfl⟩ := FileTree.write_ok hdrafted
      rw [place_draft] at hlocate hfree ⊢
      rw [zonePath_append] at hlocate
      obtain ⟨-, hdirectory, -⟩ := FileTree.locate_join (FileName.plain_draft zone) hlocate
      refine ⟨hdirectory, hfree, ?_⟩
      have hplace : ∀ p, (files.put (draftSlot (files.place location) zone)
          (.file z.toBytes)).place p = files.place p := FileTree.place_congr rfl
      split
      case h_1 e _ => exact Or.inl ⟨e, rfl⟩
      case h_2 renamed hrenamed =>
          right
          obtain ⟨contents, hdraft, htarget, htargetFree, rfl⟩ := FileTree.rename_ok hrenamed
          rw [hplace, place_draft, FileTree.node?_put_self (proper_draftSlot _ _)] at hdraft
          cases hdraft
          rw [hplace, place_zonePath] at htarget htargetFree
          refine ⟨htarget, htargetFree, ?_⟩
          rw [hplace, hplace, place_draft, place_zonePath]

/-- The locations that the writing of a zone's file touches. -/
def Written (base : Location) (zone : String) (location : Location) : Prop :=
  location = draftSlot base zone ∨ location = slot base zone

theorem not_written_slot (h : other ≠ zone) : ¬Written base zone (slot base other) := by
  rintro (hdraft | hslot)
  · exact draftSlot_ne_slot base zone other hdraft.symm
  · exact h (slot_injective hslot)

theorem filesFrom_dump (files : FileTree) (location : Path) (zone : String) (z : Zone)
    (hbase : files.place location = base) :
    FilesFrom (Written base zone) files (dump files (zonePath location zone) z).1 := by
  rcases dump_cases files location zone z hbase with ⟨e, heq⟩ | ⟨-, -, ⟨e, heq⟩ | ⟨-, -, heq⟩⟩
  · rw [heq]
    exact .refl _ files
  · rw [heq]
    exact FileTree.filesFrom_put (proper_draftSlot base zone) files (Or.inl rfl)
  · rw [heq]
    have hdraft : FilesFrom (Written base zone) files
        (files.put (draftSlot base zone) (.file z.toBytes)) :=
      FileTree.filesFrom_put (proper_draftSlot base zone) files (Or.inl rfl)
    refine (hdraft.trans (FileTree.filesFrom_removeAt _ _ (draftSlot base zone))).trans ?_
    exact FileTree.filesFrom_put (proper_slot base zone) _ (Or.inr rfl)

/-- After the writing of a zone's file its slot is as before, or holds the zone if all went well. -/
theorem node?_slot_dump (files : FileTree) (location : Path) (zone : String) (z : Zone)
    (hbase : files.place location = base) :
    (dump files (zonePath location zone) z).1.node? (slot base zone) =
      match (dump files (zonePath location zone) z).2 with
      | .ok () => some (.file z.toBytes)
      | .error _ => files.node? (slot base zone) := by
  rcases dump_cases files location zone z hbase with ⟨e, heq⟩ | ⟨-, -, ⟨e, heq⟩ | ⟨-, -, heq⟩⟩
  · rw [heq]
  · rw [heq]
    exact FileTree.node?_put_of_ne (proper_draftSlot base zone) _ _
      (draftSlot_ne_slot base zone zone).symm
  · rw [heq]
    exact FileTree.node?_put_self (proper_slot base zone) _ _

theorem stored_dump (files : FileTree) (location : Path) (zone : String) (z : Zone)
    (hbase : files.place location = base) (other : String) :
    let files' := (dump files (zonePath location zone) z).1
    stored files' (slot base other) = stored files (slot base other) ∨
      stored files' (slot base other) = {} ∨
      other = zone ∧ stored files' (slot base other) = z := by
  intro files'
  by_cases hsame : other = zone
  · subst hsame
    have hslot := node?_slot_dump files location other z hbase
    cases hresult : (dump files (zonePath location other) z).2 with
    | ok _ =>
        rw [hresult] at hslot
        exact Or.inr (Or.inr ⟨rfl, stored_of_file hslot⟩)
    | error e =>
        rw [hresult] at hslot
        exact Or.inl (stored_congr hslot)
  · have hfiles := filesFrom_dump files location zone z hbase
    rcases stored_of_filesFrom hfiles _ (not_written_slot hsame) with hkept | hgone
    · exact Or.inl hkept
    · exact Or.inr (Or.inl hgone)

/-- A draft that takes the place of a file touches nothing else. -/
theorem spares_replace {drafted : FileTree} (nested : drafted.Nested) {contents : Text.Bytes}
    (hdraft : drafted.node? (draftSlot base zone) = some (.file contents))
    (hdirectory : drafted.node? base = some .directory)
    (hfree : drafted.node? (slot base zone) ≠ some .directory) (node : FileTree.Node) :
    Spares (Written base zone) drafted
      ((drafted.removeAt (draftSlot base zone)).put (slot base zone) node) := by
  have hremoved : Spares (Written base zone) drafted (drafted.removeAt (draftSlot base zone)) :=
    FileTree.spares_removeAt nested (Or.inl rfl) hdraft
  refine hremoved.trans (FileTree.spares_put (Or.inr rfl) ?_ ?_ node)
  · exact Or.inr ⟨base, _, rfl, hremoved.directories base hdirectory⟩
  · rw [FileTree.node?_removeAt_file nested hdraft, if_neg (draftSlot_ne_slot base zone zone).symm]
    exact hfree

/-- Where everything is in a directory, the writing of a zone's file touches nothing else, and if
all goes well its path leads to it. -/
theorem spares_dump {files : FileTree} (nested : files.Nested) (location : Path) (zone : String)
    (z : Zone) (hbase : files.place location = base) :
    Spares (Written base zone) files (dump files (zonePath location zone) z).1 ∧
      ((dump files (zonePath location zone) z).2 = .ok () →
        (dump files (zonePath location zone) z).1.locate (zonePath location zone) =
          .ok (slot base zone)) := by
  rcases dump_cases files location zone z hbase with
    ⟨e, heq⟩ | ⟨hdirectory, hfree, hrest⟩
  · rw [heq]
    exact ⟨.refl _ files, by simp⟩
  have hdraft : Spares (Written base zone) files
      (files.put (draftSlot base zone) (.file z.toBytes)) :=
    FileTree.spares_put (Or.inl rfl) (Or.inr ⟨base, _, rfl, hdirectory⟩) hfree _
  have hfile := FileTree.node?_put_self (proper_draftSlot base zone) files (.file z.toBytes)
  rcases hrest with ⟨e, heq⟩ | ⟨hlocate, hslotFree, heq⟩
  · rw [heq]
    exact ⟨hdraft, by simp⟩
  · have hreplace := spares_replace (hdraft.nested nested) hfile
      (hdraft.directories base hdirectory) hslotFree (.file z.toBytes)
    rw [heq]
    exact ⟨hdraft.trans hreplace, fun _ => hreplace.locate hlocate⟩

end Testbed.Cache
