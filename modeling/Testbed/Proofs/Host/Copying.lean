import Testbed.Host.Local
import Testbed.Proofs.FileTree.Change
import Testbed.Proofs.FileTree.Directories

/-!
# What copying a file does

The target of a copy is emptied before the source is read on.  So a copy leaves at its destination
what the source held, unless both are one file, which then ends up empty.  That happens without an
error, and not only if the two paths are the same: a file that is put into its own directory has
itself as the destination.  Nothing else is touched in any case.
-/

namespace Testbed.FileTree

variable {t t' : FileTree} {location : Location} {contents : Text.Bytes}

theorem readBytes_eq_ok {p : Path} :
    t.readBytes p = .ok contents ↔ t.lookup p = .ok (t.place p, .file contents) := by
  rw [readBytes]
  split
  case h_1 found _ hlookup =>
      rw [hlookup, place_of_locate (lookup_ok.mp hlookup).1]
      simp
  case h_2 hlookup => simp [hlookup]
  case h_3 hlookup => simp [hlookup]

/-! ## One file with new contents -/

/-- One location has a file with these contents, where no directory was, and all others are as they
were. -/
structure Overwritten (t t' : FileTree) (location : Location) (contents : Text.Bytes) : Prop where
  current : t'.current = t.current
  free : t.node? location ≠ some .directory
  here : t'.node? location = some (.file contents)
  elsewhere : ∀ other, other ≠ location → t'.node? other = t.node? other

theorem overwritten_put (free : t.node? location ≠ some .directory) (contents : Text.Bytes) :
    Overwritten t (t.put location (.file contents)) location contents where
  current := rfl
  free := free
  here := node?_put_self (proper_of_node? rfl free) t _
  elsewhere := fun _ hne => node?_put_of_ne (proper_of_node? rfl free) t _ hne

theorem Overwritten.again {between : FileTree} {first : Text.Bytes}
    (h : Overwritten t between location first) (h' : Overwritten between t' location contents) :
    Overwritten t t' location contents where
  current := h'.current.trans h.current
  free := h.free
  here := h'.here
  elsewhere := fun other hne => (h'.elsewhere other hne).trans (h.elsewhere other hne)

section Overwritten

variable (h : Overwritten t t' location contents) {p : Path}

include h

theorem Overwritten.locate (hlocate : t.locate p = .ok (t.place p)) :
    t'.locate p = .ok (t'.place p) := by
  rw [place_congr h.current]
  apply locate_of_directories h.current ?_ hlocate
  intro other hdirectory
  rw [h.elsewhere other ?_, hdirectory]
  rintro rfl
  exact h.free hdirectory

/-- A path to the location reads the new contents. -/
theorem Overwritten.readBytes_here (hlocate : t.locate p = .ok location) :
    t'.readBytes p = .ok contents := by
  have hplace := place_of_locate hlocate
  subst hplace
  rw [readBytes_eq_ok, lookup_ok]
  refine ⟨h.locate hlocate, ?_⟩
  rw [place_congr h.current, h.here]

/-- A path to another file reads what it read. -/
theorem Overwritten.readBytes_elsewhere {others : Text.Bytes} (hread : t.readBytes p = .ok others)
    (hne : t.place p ≠ location) : t'.readBytes p = .ok others := by
  rw [readBytes_eq_ok, lookup_ok] at hread ⊢
  refine ⟨h.locate hread.1, ?_⟩
  rw [place_congr h.current, h.elsewhere _ hne, hread.2]

end Overwritten

/-- A file that is copied onto itself ends up empty. -/
theorem copy_ok {source target : Path} (h : t.copy source target = .ok t') :
    t.locate target = .ok (t.place target) ∧ ∃ contents, t.readBytes source = .ok contents ∧
      Overwritten t t' (t.place target)
        (if t.place source = t.place target then [] else contents) := by
  rw [copy] at h
  split at h
  case h_1 => cases h
  case h_2 => cases h
  case h_3 location contents hsource =>
      have hplace := place_of_locate (lookup_ok.mp hsource).1
      subst hplace
      split at h
      case h_1 => cases h
      case h_2 found hfound =>
          obtain ⟨htarget, hfree⟩ := locateForWriting_ok hfound
          have hplace := place_of_locate htarget
          subst hplace
          refine ⟨htarget, contents, readBytes_eq_ok.mpr hsource, ?_⟩
          have hemptied := overwritten_put hfree []
          have hstill : (t.put (t.place target) (.file [])).node? (t.place source) =
              some (.file (if t.place source = t.place target then [] else contents)) := by
            split
            case isTrue hsame => rw [hsame, hemptied.here]
            case isFalse hne => rw [hemptied.elsewhere _ hne, (lookup_ok.mp hsource).2]
          simp only [hstill] at h
          cases h
          apply hemptied.again
          apply overwritten_put
          simp [hemptied.here]

end Testbed.FileTree

namespace Testbed.Host.Local

variable {t : FileTree} {source target : Path}

/-! ## The destination -/

/-- What is put into a directory keeps its name, and everything else is put where it is said. -/
theorem destination_of_copy {t' : FileTree}
    (h : t.copy source (destination t source target) = .ok t') :
    (t.isDirectory target = true →
      ∃ name, source.fileName? = some name ∧ destination t source target = target.join name) ∧
    (t.isDirectory target = false → destination t source target = target) := by
  rw [destination.eq_def] at h ⊢
  rcases hname : source.fileName? with - | name
  · refine ⟨fun hdirectory => ?_, fun _ => rfl⟩
    -- A directory cannot be written, so without a name there is no success.
    simp only [hname] at h
    obtain ⟨-, _, -, hwritten⟩ := FileTree.copy_ok h
    obtain ⟨location, hlookup⟩ := FileTree.lookup_of_isDirectory hdirectory
    obtain ⟨hlocation, hnode⟩ := FileTree.lookup_ok.mp hlookup
    rw [FileTree.place_of_locate hlocation] at hnode
    exact absurd hnode hwritten.free
  · constructor
    · intro hdirectory
      exact ⟨name, rfl, if_pos hdirectory⟩
    · intro hother
      exact if_neg (Bool.not_eq_true _ ▸ hother)

/-! ## Successful copies -/

/-- A copy has done its work: the destination holds what the source held, and all files but the
destination hold what they held. -/
structure Copied (t t' : FileTree) (source destination : Path) : Prop where
  arrived : t'.readBytes destination = t.readBytes source
  source : t'.readBytes source = t.readBytes source
  others : ∀ p contents, t.readBytes p = .ok contents → t.place p ≠ t.place destination →
    t'.readBytes p = .ok contents

theorem copy_of_success (h : (execute (.copy source target) t).1.failed = false) :
    t.copy source (destination t source target) = .ok (execute (.copy source target) t).2 := by
  rw [execute, copy] at h ⊢
  split at h
  case h_1 hcopied => rw [hcopied]
  case h_2 => cases h

/-- A copy that succeeds does its work if and only if source and destination are different files or
the file is empty.  A file that is its own destination ends up empty. -/
theorem copied_iff (source target : Path) (t : FileTree)
    (success : (execute (.copy source target) t).1.failed = false) :
    let t' := (execute (.copy source target) t).2
    let dest := destination t source target
    (t.isDirectory target = true →
      ∃ name, source.fileName? = some name ∧ dest = target.join name) ∧
    (t.isDirectory target = false → dest = target) ∧
    (∃ contents, t.readBytes source = .ok contents) ∧
    (Copied t t' source dest ↔
      t.locate source ≠ t.locate dest ∨ t.readBytes source = .ok []) ∧
    (t.locate source = t.locate dest → t'.readBytes source = .ok []) ∧
    ∀ location, location ≠ t.place dest → t'.node? location = t.node? location := by
  have hcopy := copy_of_success success
  intro t' dest
  obtain ⟨hinto, honto⟩ := destination_of_copy hcopy
  obtain ⟨hlocate, contents, hread, hwritten⟩ := FileTree.copy_ok hcopy
  have hsource : t.locate source = .ok (t.place source) :=
    (FileTree.lookup_ok.mp (FileTree.readBytes_eq_ok.mp hread)).1
  have hsame : t.locate source = t.locate dest ↔ t.place source = t.place dest := by
    rw [hsource, hlocate, Except.ok.injEq]
  have hempty : t.place source = t.place dest → t'.readBytes source = .ok [] := by
    intro hplace
    rw [if_pos hplace] at hwritten
    apply hwritten.readBytes_here
    rw [hsource, hplace]
  refine ⟨hinto, honto, ⟨contents, hread⟩, ?_, fun h => hempty (hsame.mp h), hwritten.elsewhere⟩
  rw [ne_eq, hsame]
  constructor
  · intro hcopied
    by_cases hplace : t.place source = t.place dest
    · exact Or.inr (hcopied.source.symm.trans (hempty hplace))
    · exact Or.inl hplace
  · intro hintact
    have hleft : (if t.place source = t.place dest then [] else contents) = contents := by
      rcases hintact with hne | hnone
      · exact if_neg hne
      · rw [hread, Except.ok.injEq] at hnone
        rw [hnone, ite_self]
    rw [hleft] at hwritten
    have harrived : t'.readBytes dest = .ok contents := hwritten.readBytes_here hlocate
    refine ⟨harrived.trans hread.symm, ?_, fun _ _ hother hne =>
      hwritten.readBytes_elsewhere hother hne⟩
    rw [hread]
    by_cases hplace : t.place source = t.place dest
    · apply hwritten.readBytes_here
      rw [hsource, hplace]
    · exact hwritten.readBytes_elsewhere hread hplace

/-- A file is put into a directory in place of another one of its name. -/
theorem copied_iff_replaced :
    let file (text : String) : FileTree.Node := .file (Text.Utf8.encode text)
    let t : FileTree :=
      { nodes := [(["a"], file "new"), (["d"], .directory), (["d", "a"], file "old")] }
    (execute (.copy "a" "d/../d") t).1.failed = false ∧
      Copied t (execute (.copy "a" "d/../d") t).2 "a" "d/../d/a" := by
  intro file t
  have success : (execute (.copy "a" "d/../d") t).1.failed = false := by decide +kernel
  obtain ⟨hinto, -, -, hcopied, -, -⟩ := copied_iff "a" "d/../d" t success
  obtain ⟨name, hname, hdestination⟩ := hinto (by decide +kernel)
  have hkept : Path.fileName? "a" = some "a" := by decide +kernel
  rw [hkept, Option.some.injEq] at hname
  subst hname
  have hjoin : Path.join "d/../d" "a" = "d/../d/a" := by decide +kernel
  rw [hjoin] at hdestination
  rw [hdestination] at hcopied
  have hne : t.locate "a" ≠ t.locate "d/../d/a" := by decide +kernel
  exact ⟨success, hcopied.mpr (Or.inl hne)⟩

/-- A file that is put into its own directory is lost, and no error tells of it. -/
theorem not_copied_into_own_directory :
    ¬∀ (t : FileTree) (source target : Path), (execute (.copy source target) t).1.failed = false →
      Copied t (execute (.copy source target) t).2 source (destination t source target) := by
  intro h
  let t : FileTree := { nodes := [(["a.txt"], .file (Text.Utf8.encode "data"))] }
  have hcopied := h t "a.txt" "." (by decide +kernel)
  have hlost : (execute (.copy "a.txt" ".") t).2.readBytes "a.txt" ≠ t.readBytes "a.txt" := by
    decide +kernel
  exact hlost hcopied.source

end Testbed.Host.Local
