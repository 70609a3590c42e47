import Testbed.Proofs.FileTree.Directories

/-!
# Trees that differ in the files of one directory

Paths are walked through directories, so two trees with the same directories have the same paths to
everything, whatever their files are.  If they differ only in files inside one directory, removing
this directory leaves the same tree of both.
-/

namespace Testbed.FileTree

/-- Whether a location is the directory itself or apart from it. -/
def notInside (base location : Location) : Bool :=
  location == base || !base.isPrefixOf location

/-- Two trees differ in files inside a directory alone. -/
structure Near (base : Location) (t t' : FileTree) : Prop where
  current : t'.current = t.current
  directories : ∀ l, t'.node? l = some .directory ↔ t.node? l = some .directory
  others : t'.nodes.filter (notInside base ·.1) = t.nodes.filter (notInside base ·.1)

variable {base location : Location} {t t' t'' : FileTree} {p : Path}

theorem Near.refl (base : Location) (t : FileTree) : Near base t t :=
  ⟨rfl, fun _ => Iff.rfl, rfl⟩

theorem Near.symm (h : Near base t t') : Near base t' t :=
  ⟨h.current.symm, fun l => (h.directories l).symm, h.others.symm⟩

theorem Near.trans (h : Near base t t') (h' : Near base t' t'') : Near base t t'' :=
  ⟨h'.current.trans h.current, fun l => (h'.directories l).trans (h.directories l),
    h'.others.trans h.others⟩

/-! ## Changes of files -/

theorem notInside_append (base : Location) (name : String) :
    notInside base (base ++ [name]) = false := by
  simp [notInside]

/-- What is not inside a directory is not below anything inside it either. -/
theorem not_prefix_of_notInside {other : Location} (inside : notInside base location = false)
    (h : notInside base other = true) : ¬location <+: other := by
  simp only [notInside, Bool.or_eq_false_iff, Bool.not_eq_eq_eq_not, Bool.not_false,
    beq_eq_false_iff_ne, List.isPrefixOf_iff_prefix] at inside
  intro below
  rw [notInside, Bool.or_eq_true, beq_iff_eq] at h
  rcases h with rfl | hnot
  · exact inside.1 (below.eq_of_length_le inside.2.length_le)
  · rw [Bool.not_eq_eq_eq_not, Bool.not_true, Bool.eq_false_iff, ne_eq,
      List.isPrefixOf_iff_prefix] at hnot
    exact hnot (inside.2.trans below)

theorem near_put (inside : notInside base location = false)
    (free : t.node? location ≠ some .directory) (contents : Text.Bytes) :
    Near base t (t.put location (.file contents)) where
  current := rfl
  directories := fun _ =>
    ⟨directory_of_put (proper_of_node? rfl free), directory_put free _⟩
  others := by
    rw [put, List.filter_cons_of_neg (by simp [inside]), List.filter_filter]
    apply List.filter_congr
    intro entry _
    by_cases hsame : entry.1 = location
    · simp [hsame, inside]
    · simp [hsame]

theorem near_removeAt (nested : t.Nested) (inside : notInside base location = false)
    {contents : Text.Bytes} (hfile : t.node? location = some (.file contents)) :
    Near base t (t.removeAt location) where
  current := rfl
  directories := by
    have hspares : Spares (fun _ => True) t (t.removeAt location) :=
      spares_removeAt nested trivial hfile
    exact fun l => ⟨directory_of_removeAt, hspares.directories l⟩
  others := by
    rw [removeAt, List.filter_filter]
    apply List.filter_congr
    intro entry _
    cases hnot : notInside base entry.1 with
    | false => rfl
    | true =>
        have hnotBelow := mt List.isPrefixOf_iff_prefix.mp (not_prefix_of_notInside inside hnot)
        simp [hnotBelow]

/-! ## Paths -/

theorem Near.locate (h : Near base t t') (hlocate : t.locate p = .ok location) :
    t'.locate p = .ok location :=
  locate_of_directories h.current (fun l => (h.directories l).mpr) hlocate

theorem Near.lookup_directory (h : Near base t t')
    (hlookup : t.lookup p = .ok (location, .directory)) :
    t'.lookup p = .ok (location, .directory) := by
  obtain ⟨hlocate, hdirectory⟩ := lookup_ok.mp hlookup
  exact lookup_ok.mpr ⟨h.locate hlocate, (h.directories location).mpr hdirectory⟩

/-- Nothing need be done to make a directory that is there, and nothing else is there already. -/
theorem makeDirectories_eq_self_iff :
    t.makeDirectories p = (t, none) ↔ p = "" ∨ ∃ l, t.lookup p = .ok (l, .directory) := by
  constructor
  · intro made
    by_cases hempty : p = ""
    · exact Or.inl hempty
    · rw [makeDirectories_of_ne hempty] at made
      exact Or.inr (lookup_of_attemptAfter made)
  · rintro (rfl | ⟨l, hlookup⟩)
    · exact makeDirectories_empty t
    · exact makeDirectories_existing hlookup

theorem Near.makeDirectories (h : Near base t t') (made : t.makeDirectories p = (t, none)) :
    t'.makeDirectories p = (t', none) := by
  rw [makeDirectories_eq_self_iff] at made ⊢
  exact made.imp_right fun ⟨l, hlookup⟩ => ⟨l, h.lookup_directory hlookup⟩

/-- Removing the directory leaves the same tree, and so does emptying it. -/
theorem Near.removeDirectory (h : Near base t t')
    (there : t.lookup p = .ok (base, .directory)) :
    t'.removeDirectory p = t.removeDirectory p := by
  have same : ∀ keep : Location → Bool, (∀ l, keep l = true → notInside base l = true) →
      ({ t' with nodes := t'.nodes.filter (keep ·.1) } : FileTree) =
        { t with nodes := t.nodes.filter (keep ·.1) } := by
    intro keep hkeep
    have hfilter : ∀ nodes : List (Location × Node),
        nodes.filter (keep ·.1) = (nodes.filter (notInside base ·.1)).filter (keep ·.1) := by
      intro nodes
      rw [List.filter_filter]
      apply List.filter_congr
      intro entry _
      cases hentry : keep entry.1 with
      | false => rfl
      | true => simp [hkeep entry.1 hentry]
    rw [hfilter t'.nodes, hfilter t.nodes, h.others, h.current]
  have there' := h.lookup_directory there
  rw [FileTree.removeDirectory, FileTree.removeDirectory, there, there']
  dsimp only
  split
  case isTrue =>
      have hremove := same (fun l => !base.isPrefixOf l) fun l hl => by simp [notInside, hl]
      exact congrArg (·, none) hremove
  case isFalse =>
      have hclear := same (notInside base) fun _ hl => hl
      exact congrArg (·, some FileError.invalidArgument) hclear

end Testbed.FileTree
