import Testbed.Proofs.FileTree.Change

/-!
# Making directories

Making the directories of a path is one attempt to make the directory itself, after the ones above
it have been made if something was missing on the way.  Whatever becomes of that, nothing else is
done to the tree.  If all goes well the path leads to a directory, and making it again does
nothing.
-/

namespace Testbed.FileTree

variable {t t' : FileTree} {location base : Location} {p : Path}

/-! ## Walks over directories -/

theorem walk_directory {parts : List String} (h : t.walk location parts = .ok base)
    (hne : parts ≠ []) : t.node? location = some .directory := by
  cases parts with
  | nil => exact absurd rfl hne
  | cons part rest =>
      obtain ⟨next, hstep, -⟩ := walk_cons.mp h
      exact (step_ok hstep).1

theorem step_self (h : t.node? location = some .directory) :
    t.step location "." = .ok location := by
  simp [step, h]

/-- A walk to a directory may stay where it is on the way. -/
theorem walk_filter {parts : List String} (h : t.walk location parts = .ok base) :
    t.walk location (parts.filter (· != ".")) = .ok base := by
  induction parts generalizing location with
  | nil => exact h
  | cons part rest ih =>
      obtain ⟨next, hstep, hwalk⟩ := walk_cons.mp h
      by_cases hself : part = "."
      · subst hself
        rw [step_self (step_ok hstep).1] at hstep
        cases hstep
        simpa using ih hwalk
      · rw [List.filter_cons_of_pos (by simpa using hself)]
        exact walk_cons.mpr ⟨next, hstep, ih hwalk⟩

theorem walk_plainParts (h : t.walk location p.parts = .ok base) :
    t.walk location p.plainParts = .ok base := by
  unfold Path.plainParts
  split
  case h_1 rest hparts _ =>
      rw [hparts] at h
      obtain ⟨next, hstep, hwalk⟩ := walk_cons.mp h
      exact walk_cons.mpr ⟨next, hstep, walk_filter hwalk⟩
  case h_2 => exact walk_filter h

/-- A path to a directory leads to it whether or not it ends in a slash. -/
theorem lookup_directory_iff : t.lookup p = .ok (location, .directory) ↔
    p ≠ "" ∧ Text.Utf8.size p ≤ pathLimit ∧ t.walk (t.origin p) p.parts = .ok location ∧
      t.node? location = some .directory := by
  rw [lookup_ok, locate_ok]
  constructor
  · rintro ⟨⟨hne, hsize, hwalk⟩, hnode⟩
    obtain ⟨middle, hparts, hend⟩ := walk_append.mp hwalk
    refine ⟨hne, hsize, ?_, hnode⟩
    split at hend
    case isTrue =>
        obtain ⟨next, hstep, hlast⟩ := walk_cons.mp hend
        rw [step_self (step_ok hstep).1] at hstep
        cases hstep
        cases hlast
        exact hparts
    case isFalse =>
        cases hend
        exact hparts
  · rintro ⟨hne, hsize, hparts, hnode⟩
    refine ⟨⟨hne, hsize, walk_append.mpr ⟨location, hparts, ?_⟩⟩, hnode⟩
    split
    case isTrue => exact walk_cons.mpr ⟨location, step_self hnode, rfl⟩
    case isFalse => rfl

/-! ## Making one directory -/

/-- A directory is made where the parts of its path lead. -/
theorem makeDirectory_eq (hne : p ≠ "") (hsize : Text.Utf8.size p ≤ pathLimit) :
    t.makeDirectory p =
      match t.walk (t.origin p) p.parts with
      | .error e => .error e
      | .ok location =>
        if !namesEntry p || (t.node? location).isSome then .error .alreadyExists
        else .ok (t.put location .directory) := by
  have hparts := Path.parts_ofParts p.isAbsolute (Path.names_parts p)
  have habsolute := Path.isAbsolute_ofParts p.isAbsolute (Path.names_parts p)
  have hlocate : t.locate (if p.endsInSlash then Path.ofParts p.isAbsolute p.parts else p) =
      t.walk (t.origin p) p.parts := by
    split
    case isFalse hslash =>
        rw [locate, if_neg (by simpa using hne), if_neg (Nat.not_lt.mpr hsize), if_neg hslash,
          List.append_nil]
    case isTrue =>
        have hplain : Path.ofParts p.isAbsolute p.parts ≠ "" := by
          intro hempty
          rw [hempty] at hparts habsolute
          exact hne (Path.eq_empty_of_parts (hparts.symm.trans Path.parts_empty) habsolute.symm)
        have hshort := Nat.le_trans (Path.size_ofParts_le (List.Sublist.refl p.parts)) hsize
        rw [locate, if_neg (by simpa using hplain), if_neg (Nat.not_lt.mpr hshort), hparts, origin,
          origin, habsolute]
        by_cases hnone : p.parts = []
        · -- The path is the root, which is there.
          have hroot : p.isAbsolute = true := by
            cases hrelative : p.isAbsolute with
            | true => rfl
            | false => exact absurd (Path.eq_empty_of_parts hnone hrelative) hne
          rw [hnone, hroot, if_pos rfl]
          rfl
        · rw [Path.endsInSlash_ofParts _ (Path.names_parts p) hnone]
          simp
  rw [makeDirectory, if_neg (Nat.not_lt.mpr hsize)]
  dsimp only
  cases hwalk : t.walk (t.origin p) p.parts with
  | error e => simp only [hlocate, hwalk]
  | ok location => simp only [hlocate, hwalk]

/-- A directory that is there is not made. -/
theorem makeDirectory_existing (h : t.lookup p = .ok (location, .directory)) :
    t.makeDirectory p = .error .alreadyExists := by
  obtain ⟨hne, hsize, hwalk, hdirectory⟩ := lookup_directory_iff.mp h
  rw [makeDirectory_eq hne hsize, hwalk]
  simp [hdirectory]

/-- A directory is made where nothing was. -/
theorem makeDirectory_ok (h : t.makeDirectory p = .ok t') :
    p ≠ "" ∧ Text.Utf8.size p ≤ pathLimit ∧ ∃ location,
      t.walk (t.origin p) p.parts = .ok location ∧ t.node? location = none ∧
        t' = t.put location .directory := by
  have hne : p ≠ "" := by
    rintro rfl
    cases h
  have hsize : Text.Utf8.size p ≤ pathLimit := by
    apply Nat.le_of_not_lt
    intro hlong
    rw [makeDirectory, if_pos hlong] at h
    cases h
  refine ⟨hne, hsize, ?_⟩
  rw [makeDirectory_eq hne hsize] at h
  split at h
  case h_1 => cases h
  case h_2 location hwalk =>
      split at h
      case isTrue => cases h
      case isFalse hnew =>
          cases h
          rw [Bool.or_eq_true, not_or] at hnew
          exact ⟨location, hwalk, by simpa using hnew.2, rfl⟩

/-- Where a directory has been made, its path has started at one. -/
theorem directory_of_makeDirectory (h : t.makeDirectory p = .ok t') :
    t.node? (t.origin p) = some .directory := by
  obtain ⟨hne, -, location, hwalk, hnone, -⟩ := makeDirectory_ok h
  by_cases hparts : p.parts = []
  · rw [hparts] at hwalk
    cases hwalk
    cases habsolute : p.isAbsolute with
    | true =>
        rw [origin, if_pos habsolute]
        rfl
    | false => exact absurd (Path.eq_empty_of_parts hparts habsolute) hne
  · exact walk_directory hwalk hparts

theorem grows_makeDirectory (h : t.makeDirectory p = .ok t') : Grows t t' := by
  have hstart := directory_of_makeDirectory h
  obtain ⟨-, -, location, hwalk, hnone, rfl⟩ := makeDirectory_ok h
  have hproper : Proper location := proper_of_node? hnone (by simp)
  have hfree : t.node? location ≠ some .directory := by simp [hnone]
  refine ⟨rfl, ?_, ?_, fun nested =>
    nested.put (nested.reached_of_walk hwalk (Or.inl hstart)) hfree _⟩
  · intro other node hnode
    rw [node?_put_of_ne hproper, hnode]
    rintro rfl
    rw [hnone] at hnode
    cases hnode
  · intro other contents hfile
    by_cases hsame : other = location
    · rw [hsame, node?_put_self hproper] at hfile
      cases hfile
    · rwa [node?_put_of_ne hproper t .directory hsame] at hfile

theorem lookup_of_makeDirectory (h : t.makeDirectory p = .ok t') :
    ∃ location, t'.lookup p = .ok (location, .directory) := by
  have hgrows := grows_makeDirectory h
  obtain ⟨hne, hsize, location, hwalk, hnone, rfl⟩ := makeDirectory_ok h
  have hproper : Proper location := proper_of_node? hnone (by simp)
  refine ⟨location, lookup_directory_iff.mpr ⟨hne, hsize, ?_, node?_put_self hproper t _⟩⟩
  exact walk_of_directories (fun l => hgrows.keeps l .directory) hwalk

theorem lookup_of_isDirectory (h : t.isDirectory p = true) :
    ∃ location, t.lookup p = .ok (location, .directory) := by
  unfold isDirectory at h
  split at h
  case h_1 location hlookup => exact ⟨location, hlookup⟩
  case h_2 => cases h

/-! ## Making several directories -/

/-- One attempt to make a directory, which may be there already. -/
def attempt (t : FileTree) (p : Path) : FileTree × Option FileError :=
  match t.orExisting p (t.makeDirectory p) with
  | .ok t' => (t', none)
  | .error e => (t, some e)

/-- Make a directory.  If something is missing on the way, this follows on what has become of the
directories above. -/
def attemptAfter (above : FileTree × Option FileError) (t : FileTree) (p : Path) :
    FileTree × Option FileError :=
  match t.makeDirectory p with
  | .ok t' => (t', none)
  | .error .notFound =>
    match above with
    | (t', some e) => (t', some e)
    | (t', none) => t'.attempt p
  | .error e => if t.isDirectory p then (t, none) else (t, some e)

theorem makeDirectoriesUp_cons (t : FileTree) (absolute : Bool) (part : String)
    (up : List String) :
    t.makeDirectoriesUp absolute (part :: up) =
      attemptAfter (t.makeDirectoriesUp absolute up) t
        (.ofParts absolute (part :: up).reverse) := by
  conv_lhs => unfold makeDirectoriesUp
  rfl

theorem makeDirectories_of_ne (hne : p ≠ "") :
    t.makeDirectories p =
      attemptAfter (t.makeDirectoriesUp p.isAbsolute p.plainParts.reverse.tail) t p := by
  unfold makeDirectories
  rw [if_neg (by simpa using hne)]
  rfl

theorem makeDirectories_empty (t : FileTree) : t.makeDirectories "" = (t, none) := by
  unfold makeDirectories
  rw [if_pos (by simp)]

theorem attemptAfter_of_missing {above : FileTree × Option FileError}
    (missing : t.makeDirectory p = .error .notFound) :
    attemptAfter above t p =
      match above with
      | (t', some e) => (t', some e)
      | (t', none) => t'.attempt p := by
  unfold attemptAfter
  rw [missing]

theorem attemptAfter_of_found {above : FileTree × Option FileError}
    (found : t.makeDirectory p ≠ .error .notFound) : attemptAfter above t p = t.attempt p := by
  unfold attemptAfter attempt orExisting
  split
  case h_1 hmade => rw [hmade]
  case h_2 hmissing => exact absurd hmissing found
  case h_3 hfailed =>
      rw [hfailed]
      dsimp only
      split <;> rfl

theorem grows_attempt (t : FileTree) (p : Path) : Grows t (t.attempt p).1 := by
  unfold attempt orExisting
  cases hmake : t.makeDirectory p with
  | ok t' => exact grows_makeDirectory hmake
  | error e =>
      dsimp only
      by_cases hthere : t.isDirectory p = true
      · rw [if_pos hthere]
        exact .refl t
      · rw [if_neg hthere]
        exact .refl t

theorem grows_attemptAfter {above : FileTree × Option FileError} (h : Grows t above.1)
    (p : Path) : Grows t (attemptAfter above t p).1 := by
  by_cases missing : t.makeDirectory p = .error .notFound
  · rw [attemptAfter_of_missing missing]
    split
    case h_1 => exact h
    case h_2 t' => exact h.trans (grows_attempt t' p)
  · rw [attemptAfter_of_found missing]
    exact grows_attempt t p

theorem grows_makeDirectoriesUp (t : FileTree) (absolute : Bool) (up : List String) :
    Grows t (t.makeDirectoriesUp absolute up).1 := by
  induction up with
  | nil => exact .refl t
  | cons part up ih => exact grows_attemptAfter ih _

/-- Making directories does nothing else, even where it fails. -/
theorem grows_makeDirectories (t : FileTree) (p : Path) : Grows t (t.makeDirectories p).1 := by
  by_cases hempty : p = ""
  · rw [hempty, makeDirectories_empty]
    exact .refl t
  · rw [makeDirectories_of_ne hempty]
    exact grows_attemptAfter (grows_makeDirectoriesUp t _ _) p

/-- Nothing is done for a directory that exists. -/
theorem attemptAfter_existing (above : FileTree × Option FileError)
    (h : t.lookup p = .ok (location, .directory)) : attemptAfter above t p = (t, none) := by
  have hmake := makeDirectory_existing h
  rw [attemptAfter_of_found (by simp [hmake]), attempt, hmake]
  simp [orExisting, isDirectory, h]

theorem makeDirectories_existing (h : t.lookup p = .ok (location, .directory)) :
    t.makeDirectories p = (t, none) := by
  rw [makeDirectories_of_ne (lookup_directory_iff.mp h).1, attemptAfter_existing _ h]

/-- An attempt that does not fail leaves a directory. -/
theorem lookup_of_attempt (h : t.attempt p = (t', none)) :
    ∃ location, t'.lookup p = .ok (location, .directory) := by
  unfold attempt at h
  cases hmake : t.makeDirectory p with
  | ok t'' =>
      rw [hmake] at h
      cases h
      exact lookup_of_makeDirectory hmake
  | error e =>
      rw [hmake, orExisting] at h
      by_cases hthere : t.isDirectory p = true
      · rw [if_pos hthere] at h
        cases h
        exact lookup_of_isDirectory hthere
      · rw [if_neg hthere] at h
        cases h

theorem lookup_of_attemptAfter {above : FileTree × Option FileError}
    (h : attemptAfter above t p = (t', none)) :
    ∃ location, t'.lookup p = .ok (location, .directory) := by
  by_cases missing : t.makeDirectory p = .error .notFound
  · rw [attemptAfter_of_missing missing] at h
    split at h
    case h_1 => cases h
    case h_2 => exact lookup_of_attempt h
  · rw [attemptAfter_of_found missing] at h
    exact lookup_of_attempt h

/-- Nothing is done for directories that have been made. -/
theorem makeDirectories_again (h : t.makeDirectories p = (t', none)) :
    t'.makeDirectories p = (t', none) := by
  by_cases hempty : p = ""
  · rw [hempty, makeDirectories_empty]
  · rw [makeDirectories_of_ne hempty] at h
    obtain ⟨location, hlookup⟩ := lookup_of_attemptAfter h
    exact makeDirectories_existing hlookup

theorem makeDirectoriesUp_again {absolute : Bool} {up : List String}
    (h : t.makeDirectoriesUp absolute up = (t', none)) :
    t'.makeDirectoriesUp absolute up = (t', none) := by
  cases up with
  | nil => rfl
  | cons part up =>
      rw [makeDirectoriesUp_cons] at h ⊢
      obtain ⟨location, hlookup⟩ := lookup_of_attemptAfter h
      exact attemptAfter_existing _ hlookup

/-! ## Paths into a directory -/

theorem walk_append_of_ok {front : List String} (h : t.walk location front = .ok next)
    (rest : List String) : t.walk location (front ++ rest) = t.walk next rest := by
  induction front generalizing location with
  | nil =>
      cases h
      rfl
  | cons part front ih =>
      obtain ⟨middle, hstep, hwalk⟩ := walk_cons.mp h
      rw [List.cons_append, walk, hstep]
      exact ih hwalk

/-- A path into a directory leads to the same place in all trees that have the directory. -/
theorem locate_join_congr {name : String} (plain : Path.Plain name)
    (h : t.walk (t.origin p) p.parts = .ok base)
    (h' : t'.walk (t'.origin p) p.parts = .ok base) (hbase : t'.node? base = t.node? base) :
    t'.locate (p.join name) = t.locate (p.join name) := by
  have horigin : ∀ s : FileTree, s.origin (p.join name) = s.origin p := by
    intro s
    rw [origin, origin, Path.isAbsolute_join p plain]
  have hstep : t'.step base name = t.step base name := by rw [step, step, hbase]
  unfold locate
  rw [Path.parts_join p plain, Path.endsInSlash_join p plain, horigin, horigin,
    List.append_assoc, walk_append_of_ok h, walk_append_of_ok h', List.singleton_append, walk, walk,
    hstep]
  rfl

/-- Where a path leads into a directory that is still there, all names in it are found as before. -/
theorem Spares.locate_join {touched : Location → Prop} (hspares : Spares touched t t')
    {name other : String} (plain : Path.Plain name) (h : t.locate (p.join name) = .ok location)
    (plain' : Path.Plain other) : t'.locate (p.join other) = t.locate (p.join other) := by
  obtain ⟨hwalk, hdirectory, -⟩ := FileTree.locate_join plain h
  obtain ⟨hwalk', hdirectory', -⟩ := FileTree.locate_join plain (hspares.locate h)
  rw [place_congr hspares.current] at hwalk' hdirectory'
  exact locate_join_congr plain' hwalk hwalk' (hdirectory'.trans hdirectory.symm)

/-- Nothing is done for a directory that a path leads into. -/
theorem makeDirectories_of_locate {name : String} (plain : Path.Plain name)
    (h : t.locate (p.join name) = .ok location) : t.makeDirectories p = (t, none) := by
  obtain ⟨-, hjoin, -⟩ := locate_ok.mp h
  obtain ⟨hwalk, hdirectory, -⟩ := locate_join plain h
  by_cases hempty : p = ""
  · rw [hempty, makeDirectories_empty]
  · have hsize := Nat.le_trans (Path.size_le_join p name) hjoin
    exact makeDirectories_existing
      (lookup_directory_iff.mpr ⟨hempty, hsize, hwalk, hdirectory⟩)

end Testbed.FileTree
