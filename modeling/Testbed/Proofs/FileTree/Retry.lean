import Testbed.Proofs.FileTree.Directories

/-!
# Making directories again

What is made before a failure stays, so making directories once more starts from another tree.
Still a failure is final: where making directories has failed, making them again fails.

The tree after the second attempt is compared with the tree before the first one.  If the path leads
to a directory at last, then every attempt to make one above it either succeeds or finds it there,
so already the first time these have been made.
-/

namespace Testbed.FileTree

variable {t t' s : FileTree} {location base : Location} {p : Path}

/-- New directories do not open a way that is blocked. -/
theorem walk_error_of_grows (grows : Grows s t) {parts : List String} {e : FileError}
    (h : s.walk location parts = .error e) (he : e ≠ .notFound) :
    t.walk location parts = .error e := by
  induction parts generalizing location with
  | nil => cases h
  | cons part rest ih =>
      rw [walk] at h ⊢
      cases hnode : s.node? location with
      | none =>
          have hstep : s.step location part = .error .notFound := by simp [step, hnode]
          rw [hstep] at h
          cases h
          exact absurd rfl he
      | some node =>
          have hstep : t.step location part = s.step location part := by
            simp only [step, hnode, grows.keeps location node hnode]
          rw [hstep]
          cases hnext : s.step location part with
          | error e' =>
              rw [hnext] at h
              exact h
          | ok next =>
              rw [hnext] at h
              exact ih h

/-- A path that names no entry leads to a directory, if anywhere. -/
theorem Nested.directory_of_walk (nested : t.Nested)
    (h : t.walk (t.origin p) p.parts = .ok location) (hne : p ≠ "")
    (hnames : namesEntry p = false) : t.node? location = some .directory := by
  cases hparts : p.parts using List.reverseRecOn with
  | nil =>
      have hroot : p.isAbsolute = true := by
        cases hrelative : p.isAbsolute with
        | true => rfl
        | false => exact absurd (Path.eq_empty_of_parts hparts hrelative) hne
      rw [hparts, origin, if_pos hroot] at h
      cases h
      rfl
  | append_singleton front last =>
      rw [hparts] at h
      obtain ⟨middle, -, hlast⟩ := walk_append.mp h
      obtain ⟨next, hstep, hend⟩ := walk_cons.mp hlast
      cases hend
      obtain ⟨hdirectory, rfl⟩ := step_ok hstep
      simp only [namesEntry, hparts, List.getLast?_concat, Bool.and_eq_false_iff,
        bne_eq_false_iff_eq] at hnames
      rcases hnames with rfl | rfl
      · exact hdirectory
      · exact nested.parent_directory hdirectory

/-! ## On the way to a directory that will be there -/

theorem Grows.put_directory (grows : Grows s t) (nested : s.Nested)
    (hnone : s.node? location = none) (h : t.node? location = some .directory) :
    Grows (s.put location .directory) t where
  current := grows.current
  keeps := by
    intro other node hnode
    by_cases hsame : other = location
    · rw [hsame, node?_put_self (proper_of_node? hnone (by simp))] at hnode
      cases hnode
      rw [hsame, h]
    · rw [node?_put_of_ne (proper_of_node? hnone (by simp)) s _ hsame] at hnode
      exact grows.keeps other node hnode
  files := by
    intro other contents hfile
    have hearlier := grows.files other contents hfile
    rw [node?_put_of_ne (proper_of_node? hnone (by simp)), hearlier]
    rintro rfl
    rw [hnone] at hearlier
    cases hearlier
  nested := fun _ => grows.nested nested

theorem Grows.walk (grows : Grows s t) {parts : List String}
    (h : s.walk location parts = .ok base) : t.walk location parts = .ok base :=
  walk_of_directories (fun l => grows.keeps l .directory) h

theorem Grows.origin (grows : Grows s t) (p : Path) : t.origin p = s.origin p := by
  rw [FileTree.origin, FileTree.origin, grows.current]

/-- What keeps a directory from being made can only be that it is there, or that something is
missing on the way. -/
theorem Grows.lookup_of_error (grows : Grows s t) (nested : s.Nested)
    (h : t.lookup p = .ok (base, .directory)) {e : FileError}
    (hmake : s.makeDirectory p = .error e) (he : e ≠ .notFound) :
    s.lookup p = .ok (base, .directory) := by
  obtain ⟨hne, hsize, hwalk, hdirectory⟩ := lookup_directory_iff.mp h
  rw [grows.origin] at hwalk
  rw [makeDirectory_eq hne hsize] at hmake
  split at hmake
  case h_1 e' herror =>
      cases hmake
      rw [walk_error_of_grows grows herror he] at hwalk
      cases hwalk
  case h_2 location hlocation =>
      have hsame := grows.walk hlocation
      rw [hwalk] at hsame
      cases hsame
      refine lookup_directory_iff.mpr ⟨hne, hsize, hlocation, ?_⟩
      cases hnode : s.node? base with
      | none =>
          have hnames : namesEntry p = false := by
            rw [hnode] at hmake
            split at hmake
            case isTrue hnew => simpa using hnew
            case isFalse => cases hmake
          rw [← hnode]
          exact nested.directory_of_walk hlocation hne hnames
      | some node =>
          have hkept := grows.keeps base node hnode
          rw [hdirectory] at hkept
          exact hkept.symm

/-- Unless something is missing on the way, an attempt does not fail. -/
theorem Grows.attempt (grows : Grows s t) (nested : s.Nested)
    (h : t.lookup p = .ok (base, .directory)) (found : s.makeDirectory p ≠ .error .notFound) :
    ∃ s', s.attempt p = (s', none) ∧ Grows s s' ∧ Grows s' t ∧
      s'.lookup p = .ok (base, .directory) := by
  obtain ⟨hne, hsize, hwalk, hdirectory⟩ := lookup_directory_iff.mp h
  cases hmake : s.makeDirectory p with
  | ok s' =>
      have hgrows := grows_makeDirectory hmake
      obtain ⟨-, -, location, hlocation, hnone, rfl⟩ := makeDirectory_ok hmake
      have hsame := grows.walk hlocation
      rw [← grows.origin, hwalk] at hsame
      cases hsame
      refine ⟨s.put base .directory, ?_, hgrows, grows.put_directory nested hnone hdirectory, ?_⟩
      · rw [FileTree.attempt, hmake]
        rfl
      · refine lookup_directory_iff.mpr ⟨hne, hsize, hgrows.walk hlocation, ?_⟩
        exact node?_put_self (proper_of_node? hnone (by simp)) s _
  | error e =>
      have he : e ≠ .notFound := by
        rintro rfl
        exact found hmake
      have hlookup := grows.lookup_of_error nested h hmake he
      refine ⟨s, ?_, .refl s, grows, hlookup⟩
      simp [FileTree.attempt, hmake, orExisting, isDirectory, hlookup]

/-- Nothing is missing on the way if the directory above is there. -/
theorem Grows.makeDirectory_ne_notFound (grows : Grows s t)
    (h : t.lookup p = .ok (base, .directory)) {front : List String} {last : String}
    (hparts : p.parts = front ++ [last]) {above : Location}
    (hwalk : s.walk (s.origin p) front = .ok above) (habove : s.node? above = some .directory) :
    s.walk (s.origin p) p.parts = .ok base ∧ s.makeDirectory p ≠ .error .notFound := by
  obtain ⟨hne, hsize, hbase, -⟩ := lookup_directory_iff.mp h
  rw [grows.origin, hparts] at hbase
  obtain ⟨middle, hmiddle, hlast⟩ := walk_append.mp hbase
  rw [grows.walk hwalk] at hmiddle
  cases hmiddle
  obtain ⟨next, hstep, hend⟩ := walk_cons.mp hlast
  cases hend
  have hsame : s.step above last = .ok base := by
    rw [← hstep, step, step, habove, grows.keeps above _ habove]
  have hall : s.walk (s.origin p) p.parts = .ok base := by
    rw [hparts]
    exact walk_append.mpr ⟨above, hwalk, walk_cons.mpr ⟨base, hsame, rfl⟩⟩
  refine ⟨hall, ?_⟩
  rw [makeDirectory_eq hne hsize, hall]
  dsimp only
  split <;> simp

theorem lookup_front {absolute : Bool} {front : List String} {last : String}
    (names : Path.Names (front ++ [last])) (hne : front ≠ [])
    (h : t.lookup (.ofParts absolute (front ++ [last])) = .ok (base, .directory)) :
    ∃ above, t.lookup (.ofParts absolute front) = .ok (above, .directory) := by
  obtain ⟨-, hsize, hwalk, -⟩ := lookup_directory_iff.mp h
  have hparts := Path.parts_ofParts absolute names
  have habsolute := Path.isAbsolute_ofParts absolute names
  have hfront : front.Sublist (front ++ [last]) := List.sublist_append_left front [last]
  have names' : Path.Names front := names.subset hfront.subset
  rw [hparts] at hwalk
  obtain ⟨above, habove, hlast⟩ := walk_append.mp hwalk
  refine ⟨above, lookup_directory_iff.mpr
    ⟨Path.ofParts_ne_empty absolute names' hne, ?_, ?_, walk_directory hlast (by simp)⟩⟩
  · rw [← hparts] at hfront
    have hle := Path.size_ofParts_le hfront
    rw [habsolute] at hle
    exact Nat.le_trans hle hsize
  · rw [Path.parts_ofParts absolute names', origin, Path.isAbsolute_ofParts absolute names']
    rwa [origin, habsolute] at habove

/-- Where a path leads to a directory at last, it can be made. -/
theorem makeDirectoriesUp_of_grows (grows : Grows s t) (nested : s.Nested) (absolute : Bool)
    (rooted : s.node? (if absolute then outside else s.current) = some .directory)
    (up : List String) (names : Path.Names up.reverse)
    (h : up ≠ [] → ∃ base, t.lookup (.ofParts absolute up.reverse) = .ok (base, .directory)) :
    ∃ s', s.makeDirectoriesUp absolute up = (s', none) ∧ Grows s s' ∧ Grows s' t ∧
      ∃ above, s'.walk (if absolute then outside else s.current) up.reverse = .ok above ∧
        s'.node? above = some .directory := by
  induction up with
  | nil => exact ⟨s, rfl, .refl s, grows, _, rfl, rooted⟩
  | cons part up ih =>
      obtain ⟨base, hbase⟩ := h (List.cons_ne_nil part up)
      have hreverse : (part :: up).reverse = up.reverse ++ [part] := List.reverse_cons
      rw [hreverse] at hbase names
      have hparts := Path.parts_ofParts absolute names
      have horigin : s.origin (.ofParts absolute (up.reverse ++ [part])) =
          if absolute then outside else s.current := by
        rw [origin, Path.isAbsolute_ofParts absolute names]
      have hdone : ∀ {s' : FileTree}, Grows s s' →
          s'.lookup (.ofParts absolute (up.reverse ++ [part])) = .ok (base, .directory) →
          ∃ above, s'.walk (if absolute then outside else s.current) (up.reverse ++ [part]) =
            .ok above ∧ s'.node? above = some .directory := by
        intro s' hgrows hlookup
        obtain ⟨-, -, hwalk, hdirectory⟩ := lookup_directory_iff.mp hlookup
        rw [hgrows.origin, horigin, hparts] at hwalk
        exact ⟨base, hwalk, hdirectory⟩
      rw [makeDirectoriesUp_cons, hreverse]
      by_cases missing :
          s.makeDirectory (.ofParts absolute (up.reverse ++ [part])) = .error .notFound
      · obtain ⟨s₁, hup, hgrows₁, hbelow₁, above, hwalk, habove⟩ :=
          ih (names.subset (List.subset_append_left _ _))
            fun hne => lookup_front names (by simpa using hne) hbase
        rw [← horigin, ← hgrows₁.origin] at hwalk
        obtain ⟨-, hfound⟩ := hbelow₁.makeDirectory_ne_notFound hbase hparts hwalk habove
        obtain ⟨s₂, hmade, hgrows₂, hbelow₂, hlookup⟩ :=
          hbelow₁.attempt (hgrows₁.nested nested) hbase hfound
        have hgrows := hgrows₁.trans hgrows₂
        refine ⟨s₂, ?_, hgrows, hbelow₂, hdone hgrows hlookup⟩
        rw [attemptAfter_of_missing missing, hup]
        exact hmade
      · obtain ⟨s', hmade, hgrows, hbelow, hlookup⟩ := grows.attempt nested hbase missing
        rw [attemptAfter_of_found missing]
        exact ⟨s', hmade, hgrows, hbelow, hdone hgrows hlookup⟩

theorem lookup_plainParts (h : t.lookup p = .ok (base, .directory)) (hne : p.plainParts ≠ []) :
    t.lookup (.ofParts p.isAbsolute p.plainParts) = .ok (base, .directory) := by
  obtain ⟨-, hsize, hwalk, hdirectory⟩ := lookup_directory_iff.mp h
  have names := Path.names_plainParts p
  refine lookup_directory_iff.mpr ⟨Path.ofParts_ne_empty _ names hne, ?_, ?_, hdirectory⟩
  · exact Nat.le_trans (Path.size_ofParts_le (Path.plainParts_sublist p)) hsize
  · rw [Path.parts_ofParts _ names, origin, Path.isAbsolute_ofParts _ names]
    exact walk_plainParts hwalk

/-- Where a path leads to a directory at last, the directories above it can be made. -/
theorem makeDirectoriesUp_plainParts (grows : Grows s t) (nested : s.Nested)
    (rooted : s.node? (s.origin p) = some .directory)
    (h : t.lookup p = .ok (base, .directory)) :
    ∃ s', s.makeDirectoriesUp p.isAbsolute p.plainParts.reverse.tail = (s', none) := by
  have names := Path.names_plainParts p
  cases hplain : p.plainParts using List.reverseRecOn with
  | nil => exact ⟨s, rfl⟩
  | append_singleton front last =>
      have hlookup := lookup_plainParts h (by simp [hplain])
      rw [hplain] at names hlookup
      have hfront : (front ++ [last]).reverse.tail = front.reverse := by simp
      have names' : Path.Names front.reverse.reverse := by
        rw [List.reverse_reverse]
        exact names.subset (List.subset_append_left _ _)
      obtain ⟨s', hup, -⟩ :=
        makeDirectoriesUp_of_grows grows nested p.isAbsolute rooted front.reverse names'
          (fun hne => by simpa using lookup_front names (by simpa using hne) hlookup)
      exact ⟨s', by rw [hfront, hup]⟩

/-! ## Nothing without a start -/

/-- Where the working directory is gone, no path leads anywhere from it. -/
theorem makeDirectory_of_gone (gone : t.node? (t.origin p) ≠ some .directory) :
    ∃ e, t.makeDirectory p = .error e := by
  cases hmake : t.makeDirectory p with
  | error e => exact ⟨e, rfl⟩
  | ok t' => exact absurd (directory_of_makeDirectory hmake) gone

theorem attempt_of_gone (gone : t.node? (t.origin p) ≠ some .directory) : (t.attempt p).1 = t := by
  obtain ⟨e, hmake⟩ := makeDirectory_of_gone gone
  rw [attempt, hmake, orExisting]
  by_cases hthere : t.isDirectory p = true
  · rw [if_pos hthere]
  · rw [if_neg hthere]

theorem attemptAfter_of_gone (gone : t.node? (t.origin p) ≠ some .directory)
    {above : FileTree × Option FileError} (h : above.1 = t) : (attemptAfter above t p).1 = t := by
  by_cases missing : t.makeDirectory p = .error .notFound
  · rw [attemptAfter_of_missing missing]
    split
    case h_1 => exact h
    case h_2 t' =>
        obtain rfl : t' = t := h
        exact attempt_of_gone gone
  · rw [attemptAfter_of_found missing]
    exact attempt_of_gone gone

theorem makeDirectoriesUp_of_gone {absolute : Bool}
    (gone : t.node? (if absolute then outside else t.current) ≠ some .directory)
    {up : List String} (names : Path.Names up) : (t.makeDirectoriesUp absolute up).1 = t := by
  induction up with
  | nil => rfl
  | cons part up ih =>
      have hup := ih (names.subset (List.subset_cons_self part up))
      have hnames : Path.Names (part :: up).reverse :=
        names.subset (List.reverse_subset.mpr fun _ => id)
      rw [makeDirectoriesUp_cons]
      apply attemptAfter_of_gone _ hup
      rwa [origin, Path.isAbsolute_ofParts absolute hnames]

theorem makeDirectories_of_gone (gone : t.node? (t.origin p) ≠ some .directory) :
    (t.makeDirectories p).1 = t := by
  by_cases hempty : p = ""
  · rw [hempty, makeDirectories_empty]
  · rw [makeDirectories_of_ne hempty]
    apply attemptAfter_of_gone gone (makeDirectoriesUp_of_gone gone _)
    intro part hpart
    exact Path.names_plainParts p part (List.mem_reverse.mp (List.mem_of_mem_tail hpart))

/-! ## Failures are final -/

/-- An attempt that fails does nothing. -/
theorem attempt_of_failure {cause : FileError} (failed : t.attempt p = (t', some cause)) :
    t' = t := by
  unfold attempt orExisting at failed
  split at failed
  case h_1 => cases failed
  case h_2 =>
      cases failed
      rfl

theorem makeDirectories_of_failure (nested : t.Nested) {cause : FileError}
    (failed : t.makeDirectories p = (t', some cause)) : (t'.makeDirectories p).2 ≠ none := by
  intro hagain
  have hgrows := (grows_makeDirectories t p).trans (grows_makeDirectories _ p)
  have hne : p ≠ "" := by
    rintro rfl
    rw [makeDirectories_empty] at failed
    cases failed
  have hfirst := failed
  rw [makeDirectories_of_ne hne] at failed
  by_cases missing : t.makeDirectory p = .error .notFound
  · rw [attemptAfter_of_missing missing] at failed
    rcases hup : t.makeDirectoriesUp p.isAbsolute p.plainParts.reverse.tail with ⟨s, - | e⟩
    · -- What is made above stays, so it comes to the same attempt once more.
      rw [hup] at failed
      dsimp only at failed
      have hattempt : s.makeDirectories p = s.attempt p := by
        rw [makeDirectories_of_ne hne, makeDirectoriesUp_again hup]
        by_cases still : s.makeDirectory p = .error .notFound
        · rw [attemptAfter_of_missing still]
        · rw [attemptAfter_of_found still]
      rw [attempt_of_failure failed, hattempt, failed] at hagain
      cases hagain
    · -- If the path led to a directory in the end, the first attempt would have come further.
      obtain ⟨t₂, hmade⟩ : ∃ t₂, t'.makeDirectories p = (t₂, none) :=
        ⟨_, by rw [← hagain]⟩
      rw [hfirst, hmade] at hgrows
      rw [makeDirectories_of_ne hne] at hmade
      obtain ⟨base, hlookup⟩ := lookup_of_attemptAfter hmade
      by_cases rooted : t.node? (t.origin p) = some .directory
      · obtain ⟨s', hup'⟩ := makeDirectoriesUp_plainParts hgrows nested rooted hlookup
        cases hup.symm.trans hup'
      · have hsame := makeDirectories_of_gone rooted
        rw [hfirst] at hsame
        cases hsame
        rw [hfirst] at hagain
        cases hagain
  · rw [attemptAfter_of_found missing] at failed
    rw [attempt_of_failure failed] at hagain hfirst
    rw [hfirst] at hagain
    cases hagain

end Testbed.FileTree
