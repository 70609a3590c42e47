import Mathlib.Data.List.Induction
import Testbed.Proofs.FileTree.Place

/-!
# What changes in a file tree

In a well-formed tree everything is in a directory that is there.  Two kinds of changes keep that:
one that leaves all but some locations as they are, and all directories, and one that only makes
directories where nothing was.
-/

namespace Testbed.FileTree

variable {t t' t'' : FileTree} {location other : Location}

/-! ## Looking after a change -/

/-- A location that is neither of those that are always there. -/
def Proper (location : Location) : Prop := location ≠ [] ∧ location ≠ outside

theorem proper_append {name : String} (h : Path.Plain name) (location : Location) :
    Proper (location ++ [name]) := by
  refine ⟨by simp, ?_⟩
  intro heq
  have hname : name = "/" := by
    cases location with
    | nil => simpa [outside] using heq
    | cons first rest => simp [outside] at heq
  have hslash := h.noSlash
  rw [hname] at hslash
  exact hslash (by decide)

theorem node?_of_not_proper (h : ¬Proper location) (t : FileTree) :
    t.node? location = some .directory := by
  have hroot : location = [] ∨ location = outside := by
    rw [Proper, Classical.not_and_iff_not_or_not] at h
    simpa [Classical.not_not] using h
  simp [node?, hroot]

theorem proper_of_node? {node : Option Node} (h : t.node? location = node)
    (hnode : node ≠ some .directory) : Proper location := by
  apply Classical.byContradiction
  intro hnot
  exact hnode (h.symm.trans (node?_of_not_proper hnot t))

theorem node?_put_self (h : Proper location) (t : FileTree) (node : Node) :
    (t.put location node).node? location = some node := by
  rw [node?_put t location node location h, if_pos rfl]

theorem node?_put_of_ne (h : Proper location) (t : FileTree) (node : Node)
    (hne : other ≠ location) : (t.put location node).node? other = t.node? other := by
  rw [node?_put t location node other h, if_neg hne]

theorem find?_filter_location (keep : Location → Bool) (l : List (Location × Node))
    (location : Location) :
    (l.filter fun entry => keep entry.1).find? (·.1 == location) =
      if keep location then l.find? (·.1 == location) else none := by
  induction l with
  | nil => simp
  | cons entry rest ih =>
      by_cases hkeep : keep entry.1 <;> by_cases hlocation : entry.1 = location <;> simp_all

/-- A removal leaves what is not below the location. -/
theorem node?_removeAt (h : Proper other) (t : FileTree) (location : Location) :
    (t.removeAt location).node? other =
      if location.isPrefixOf other then none else t.node? other := by
  have hfind := find?_filter_location (fun l => !location.isPrefixOf l) t.nodes other
  simp only [node?, removeAt, hfind, h.1, h.2]
  cases location.isPrefixOf other <;> simp

theorem node?_clearAt (h : Proper other) (t : FileTree) (location : Location) :
    (t.clearAt location).node? other =
      if other == location || !location.isPrefixOf other then t.node? other else none := by
  have hfind := find?_filter_location (fun l => l == location || !location.isPrefixOf l)
    t.nodes other
  simp only [node?, clearAt, hfind, h.1, h.2]
  by_cases hkeep : (other == location || !location.isPrefixOf other) = true
  · simp [hkeep]
  · simp [Bool.not_eq_true _ ▸ hkeep]

/-! ## Changes that make no files -/

/-- The working directory stays, and all files were there before, except at some locations. -/
structure FilesFrom (touched : Location → Prop) (t t' : FileTree) : Prop where
  current : t'.current = t.current
  files : ∀ location contents, t'.node? location = some (.file contents) →
    touched location ∨ t.node? location = some (.file contents)

theorem FilesFrom.refl (touched : Location → Prop) (t : FileTree) : FilesFrom touched t t :=
  ⟨rfl, fun _ _ h => Or.inr h⟩

theorem FilesFrom.trans {touched : Location → Prop} (h : FilesFrom touched t t')
    (h' : FilesFrom touched t' t'') : FilesFrom touched t t'' where
  current := h'.current.trans h.current
  files := by
    intro location contents hfile
    rcases h'.files location contents hfile with htouched | hearlier
    · exact Or.inl htouched
    · exact h.files location contents hearlier

theorem filesFrom_removeAt (touched : Location → Prop) (t : FileTree) (location : Location) :
    FilesFrom touched t (t.removeAt location) where
  current := rfl
  files := by
    intro other contents hfile
    have hproper := proper_of_node? hfile (by simp)
    rw [node?_removeAt hproper] at hfile
    split at hfile
    case isTrue => cases hfile
    case isFalse => exact Or.inr hfile

theorem filesFrom_clearAt (touched : Location → Prop) (t : FileTree) (location : Location) :
    FilesFrom touched t (t.clearAt location) where
  current := rfl
  files := by
    intro other contents hfile
    have hproper := proper_of_node? hfile (by simp)
    rw [node?_clearAt hproper] at hfile
    split at hfile
    case isTrue => exact Or.inr hfile
    case isFalse => cases hfile

theorem filesFrom_put {touched : Location → Prop} (proper : Proper location) (t : FileTree)
    {node : Node} (h : touched location) : FilesFrom touched t (t.put location node) where
  current := rfl
  files := by
    intro other contents hfile
    by_cases hsame : other = location
    · subst hsame
      exact Or.inl h
    · rw [node?_put_of_ne proper t node hsame] at hfile
      exact Or.inr hfile

theorem filesFrom_removeDirectory (touched : Location → Prop) (t : FileTree) (p : Path) :
    FilesFrom touched t (t.removeDirectory p).1 := by
  unfold removeDirectory
  split
  case h_1 => exact .refl touched t
  case h_2 => exact .refl touched t
  case h_3 =>
      split
      case isTrue => exact filesFrom_removeAt touched t _
      case isFalse => exact filesFrom_clearAt touched t _

/-! ## Well-formed trees -/

/-- Everything is in a directory. -/
def Nested (t : FileTree) : Prop :=
  ∀ location name, t.node? (location ++ [name]) ≠ none → t.node? location = some .directory

/-- What is below another location is in a directory. -/
theorem Nested.above (nested : t.Nested) {rest : List String} (hrest : rest ≠ [])
    (h : t.node? (location ++ rest) ≠ none) : t.node? location = some .directory := by
  induction rest using List.reverseRecOn with
  | nil => exact absurd rfl hrest
  | append_singleton front name ih =>
      rw [← List.append_assoc] at h
      have hfront := nested (location ++ front) name h
      cases front with
      | nil => simpa using hfront
      | cons first others => exact ih (by simp) (by simp [hfront])

theorem Nested.parent_directory (nested : t.Nested) (h : t.node? location = some .directory) :
    t.node? (parent location) = some .directory := by
  unfold parent
  split
  case isTrue => rfl
  case isFalse hroot =>
      cases location using List.reverseRecOn with
      | nil => simp at hroot
      | append_singleton front name =>
          rw [List.dropLast_concat]
          exact nested front name (by simp [h])

/-- A location that can be reached: a directory, or a name in one. -/
def Reached (t : FileTree) (location : Location) : Prop :=
  t.node? location = some .directory ∨
    ∃ front name, location = front ++ [name] ∧ t.node? front = some .directory

theorem Nested.reached_of_walk (nested : t.Nested) {parts : List String}
    (h : t.walk location parts = .ok other) (hlocation : t.Reached location) : t.Reached other := by
  induction parts generalizing location with
  | nil =>
      cases h
      exact hlocation
  | cons part rest ih =>
      obtain ⟨next, hstep, hwalk⟩ := walk_cons.mp h
      obtain ⟨hdirectory, rfl⟩ := step_ok hstep
      apply ih hwalk
      unfold hop
      split
      case isTrue => exact Or.inl hdirectory
      case isFalse =>
          split
          case isTrue => exact Or.inl (nested.parent_directory hdirectory)
          case isFalse => exact Or.inr ⟨location, part, rfl, hdirectory⟩

/-- The working directory is there, and everything is in a directory. -/
structure WellFormed (t : FileTree) : Prop where
  rooted : t.node? t.current = some .directory
  parents : ∀ location name, t.node? (location ++ [name]) ≠ none →
    t.node? location = some .directory

theorem WellFormed.nested (wf : t.WellFormed) : t.Nested := wf.parents

/-! ## Changes at some locations -/

theorem directory_put (free : t.node? location ≠ some .directory) (node : Node)
    (h : t.node? other = some .directory) :
    (t.put location node).node? other = some .directory := by
  have hne : other ≠ location := by
    rintro rfl
    exact free h
  rw [node?_put_of_ne (proper_of_node? rfl free) t node hne, h]

/-- Something new that can be reached is in a directory. -/
theorem Nested.put (nested : t.Nested) (reached : t.Reached location)
    (free : t.node? location ≠ some .directory) (node : Node) : (t.put location node).Nested := by
  intro front name h
  apply directory_put free node
  by_cases hsame : front ++ [name] = location
  · rcases reached with hdirectory | ⟨above, last, hlocation, habove⟩
    · exact absurd hdirectory free
    · rw [hlocation] at hsame
      rw [(List.append_inj' hsame rfl).1]
      exact habove
  · rw [node?_put_of_ne (proper_of_node? rfl free) t node hsame] at h
    exact nested front name h

/-- Neither a new file nor a removal makes a directory. -/
theorem directory_of_put (proper : Proper location) {contents : Text.Bytes}
    (h : (t.put location (.file contents)).node? other = some .directory) :
    t.node? other = some .directory := by
  rw [node?_put _ _ _ _ proper] at h
  split at h
  case isTrue => cases h
  case isFalse => exact h

theorem directory_of_removeAt (h : (t.removeAt location).node? other = some .directory) :
    t.node? other = some .directory := by
  by_cases hproper : Proper other
  · rw [node?_removeAt hproper] at h
    split at h
    case isTrue => cases h
    case isFalse => exact h
  · exact node?_of_not_proper hproper t

/-- The only location below another one that is not proper is the one of everything outside. -/
theorem eq_nil_of_not_proper {front : Location} {name : String}
    (h : ¬Proper (front ++ [name])) : front = [] := by
  apply Classical.byContradiction
  intro hne
  apply h
  refine ⟨by simp, ?_⟩
  intro heq
  cases front with
  | nil => exact hne rfl
  | cons first rest => simp [outside] at heq

/-- Everything is in a directory if all that is listed is. -/
theorem nested_of_nodes (h : ∀ entry ∈ t.nodes, t.node? entry.1.dropLast = some .directory) :
    t.Nested := by
  intro front name hname
  by_cases hproper : Proper (front ++ [name])
  · simp only [node?, hproper.1, hproper.2] at hname
    cases hfind : t.nodes.find? (·.1 == front ++ [name]) with
    | none => simp [hfind] at hname
    | some entry =>
        have hlocation : entry.1 = front ++ [name] := by simpa using List.find?_some hfind
        have hentry := h entry (List.mem_of_find?_eq_some hfind)
        rwa [hlocation, List.dropLast_concat] at hentry
  · rw [eq_nil_of_not_proper hproper]
    rfl

/-- Where a location is kept only together with the one above it, what is left is in directories
that are left. -/
theorem Nested.of_kept (nested : t.Nested) (kept : Location → Prop)
    (above : ∀ front name, kept (front ++ [name]) → kept front)
    (hleft : ∀ other, Proper other → t'.node? other ≠ none → kept other ∧ t.node? other ≠ none)
    (hkept : ∀ other, Proper other → kept other → t'.node? other = t.node? other) :
    t'.Nested := by
  intro front name hname
  by_cases hproper : Proper (front ++ [name])
  · obtain ⟨hkeep, hthere⟩ := hleft _ hproper hname
    have hfront := nested front name hthere
    by_cases hfrontProper : Proper front
    · rw [hkept front hfrontProper (above front name hkeep), hfront]
    · exact node?_of_not_proper hfrontProper _
  · rw [eq_nil_of_not_proper hproper]
    rfl

theorem Nested.removeAt (nested : t.Nested) (location : Location) :
    (t.removeAt location).Nested := by
  apply nested.of_kept fun other => ¬location <+: other
  · intro front name hname hfront
    exact hname (hfront.trans (List.prefix_append front [name]))
  · intro other hproper hthere
    rw [node?_removeAt hproper] at hthere
    split at hthere
    case isTrue => exact absurd rfl hthere
    case isFalse hkeep => exact ⟨by rwa [List.isPrefixOf_iff_prefix] at hkeep, hthere⟩
  · intro other hproper hkeep
    rw [node?_removeAt hproper, if_neg]
    rwa [List.isPrefixOf_iff_prefix]

theorem Nested.clearAt (nested : t.Nested) (location : Location) :
    (t.clearAt location).Nested := by
  apply nested.of_kept fun other => other = location ∨ ¬location <+: other
  · intro front name hname
    right
    intro hfront
    have hbelow := hfront.trans (List.prefix_append front [name])
    rcases hname with rfl | hname
    · have hlength := hfront.length_le
      rw [List.length_append, List.length_singleton] at hlength
      omega
    · exact hname hbelow
  · intro other hproper hthere
    rw [node?_clearAt hproper] at hthere
    split at hthere
    case isTrue hkeep => exact ⟨by simpa [← List.isPrefixOf_iff_prefix] using hkeep, hthere⟩
    case isFalse => exact absurd rfl hthere
  · intro other hproper hkeep
    rw [node?_clearAt hproper, if_pos]
    simpa [← List.isPrefixOf_iff_prefix] using hkeep

theorem Nested.removeFile (nested : t.Nested) {p : Path} (h : t.removeFile p = .ok t') :
    t'.Nested := by
  obtain ⟨-, -, rfl⟩ := removeFile_ok h
  exact nested.removeAt _

theorem Nested.removeDirectory (nested : t.Nested) (p : Path) :
    (t.removeDirectory p).1.Nested := by
  unfold FileTree.removeDirectory
  split
  case h_1 => exact nested
  case h_2 => exact nested
  case h_3 location _ =>
      split
      case isTrue => exact nested.removeAt location
      case isFalse => exact nested.clearAt location

/-- All but some locations are as they were, and so are all directories. -/
structure Spares (touched : Location → Prop) (t t' : FileTree) : Prop where
  current : t'.current = t.current
  untouched : ∀ location, ¬touched location → t'.node? location = t.node? location
  directories : ∀ location, t.node? location = some .directory →
    t'.node? location = some .directory
  nested : t.Nested → t'.Nested

section Spares

variable {touched : Location → Prop}

theorem Spares.refl (touched : Location → Prop) (t : FileTree) : Spares touched t t :=
  ⟨rfl, fun _ _ => rfl, fun _ h => h, fun nested => nested⟩

theorem Spares.trans (h : Spares touched t t') (h' : Spares touched t' t'') :
    Spares touched t t'' where
  current := h'.current.trans h.current
  untouched := fun location hnot =>
    (h'.untouched location hnot).trans (h.untouched location hnot)
  directories := fun location hdirectory =>
    h'.directories location (h.directories location hdirectory)
  nested := fun nested => h'.nested (h.nested nested)

theorem Spares.locate (h : Spares touched t t') {p : Path} (hlocate : t.locate p = .ok location) :
    t'.locate p = .ok location :=
  locate_of_directories h.current h.directories hlocate

theorem spares_put (htouched : touched location) (reached : t.Reached location)
    (free : t.node? location ≠ some .directory) (node : Node) :
    Spares touched t (t.put location node) where
  current := rfl
  untouched := by
    intro other hnot
    apply node?_put_of_ne (proper_of_node? rfl free)
    rintro rfl
    exact hnot htouched
  directories := fun _ hdirectory => directory_put free node hdirectory
  nested := fun nested => nested.put reached free node

/-- There is nothing below a file, so removing it removes nothing else. -/
theorem node?_removeAt_file (nested : t.Nested) {contents : Text.Bytes}
    (h : t.node? location = some (.file contents)) (other : Location) :
    (t.removeAt location).node? other = if other = location then none else t.node? other := by
  have hlocation : Proper location := proper_of_node? h (by simp)
  by_cases hproper : Proper other
  · rw [node?_removeAt hproper]
    split
    case isTrue hprefix =>
        rw [List.isPrefixOf_iff_prefix] at hprefix
        obtain ⟨rest, rfl⟩ := hprefix
        split
        case isTrue => rfl
        case isFalse hne =>
            have hrest : rest ≠ [] := by
              rintro rfl
              exact hne (List.append_nil location)
            cases hnode : t.node? (location ++ rest) with
            | none => rfl
            | some node =>
                have habove : t.node? location = some .directory :=
                  nested.above hrest (by simp [hnode])
                rw [h] at habove
                cases habove
    case isFalse hprefix =>
        rw [if_neg]
        rintro rfl
        exact hprefix (List.isPrefixOf_iff_prefix.mpr List.prefix_rfl)
  · have hne : other ≠ location := by
      rintro rfl
      exact hproper hlocation
    rw [node?_of_not_proper hproper, if_neg hne, node?_of_not_proper hproper]

/-- The path of a file that has been removed leads to nothing. -/
theorem lookup_of_removeFile (nested : t.Nested) {p : Path} (removed : t.removeFile p = .ok t')
    {node : Node} : t'.lookup p ≠ .ok (location, node) := by
  obtain ⟨contents, hfound, rfl⟩ := removeFile_ok removed
  obtain ⟨-, hthere⟩ := lookup_ok.mp hfound
  intro hlookup
  obtain ⟨hlocate, hnode⟩ := lookup_ok.mp hlookup
  have hplace : location = t.place p := (place_of_locate hlocate).trans (place_congr rfl p)
  rw [hplace, node?_removeAt_file nested hthere, if_pos rfl] at hnode
  cases hnode

theorem spares_removeAt (nested : t.Nested) (htouched : touched location)
    {contents : Text.Bytes} (h : t.node? location = some (.file contents)) :
    Spares touched t (t.removeAt location) where
  current := rfl
  untouched := by
    intro other hnot
    rw [node?_removeAt_file nested h, if_neg]
    rintro rfl
    exact hnot htouched
  directories := by
    intro l hl
    rw [node?_removeAt_file nested h, if_neg]
    · exact hl
    · rintro rfl
      rw [h] at hl
      cases hl
  nested := fun nested => nested.removeAt location

end Spares

/-! ## New directories -/

/-- All is as it was, but for directories where nothing was. -/
structure Grows (t t' : FileTree) : Prop where
  current : t'.current = t.current
  keeps : ∀ location node, t.node? location = some node → t'.node? location = some node
  files : ∀ location contents, t'.node? location = some (.file contents) →
    t.node? location = some (.file contents)
  nested : t.Nested → t'.Nested

theorem Grows.refl (t : FileTree) : Grows t t :=
  ⟨rfl, fun _ _ h => h, fun _ _ h => h, fun nested => nested⟩

theorem Grows.trans (h : Grows t t') (h' : Grows t' t'') : Grows t t'' where
  current := h'.current.trans h.current
  keeps := fun location node hnode => h'.keeps location node (h.keeps location node hnode)
  files := fun location contents hfile =>
    h.files location contents (h'.files location contents hfile)
  nested := fun nested => h'.nested (h.nested nested)

theorem Grows.filesFrom (h : Grows t t') (touched : Location → Prop) : FilesFrom touched t t' :=
  ⟨h.current, fun location contents hfile => Or.inr (h.files location contents hfile)⟩

end Testbed.FileTree
