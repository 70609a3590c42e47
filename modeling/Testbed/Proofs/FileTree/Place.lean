import Testbed.FileTree.Access
import Testbed.Proofs.FileTree.Path

/-!
# Where paths lead

There are no links, so where a path leads, if it leads anywhere, is decided by its text and by the
working directory: that is its place.  Whether it leads there is decided by the directories on the
way, so it still does after a change that keeps all directories.
-/

namespace Testbed.FileTree

variable {t t' : FileTree} {location next : Location} {p : Path}

/-- Where a part leads, whatever exists. -/
def hop (location : Location) (part : String) : Location :=
  if part = "." then location
  else if part = ".." then parent location
  else location ++ [part]

/-- Where a path leads, whatever exists. -/
def place (t : FileTree) (p : Path) : Location := p.parts.foldl hop (t.origin p)

theorem hop_plain {name : String} (h : Path.Plain name) (location : Location) :
    hop location name = location ++ [name] := by
  simp [hop, h.notSelf, h.notParent]

theorem place_congr (current : t'.current = t.current) (p : Path) : t'.place p = t.place p := by
  simp [place, origin, current]

theorem place_join {name : String} (h : Path.Plain name) (p : Path) :
    t.place (p.join name) = t.place p ++ [name] := by
  rw [place, Path.parts_join p h, List.foldl_append, List.foldl_cons, List.foldl_nil, hop_plain h]
  simp [place, origin, Path.isAbsolute_join p h]

/-! ## Walks -/

theorem step_ok {part : String} (h : t.step location part = .ok next) :
    t.node? location = some .directory ∧ next = hop location part := by
  unfold step at h
  split at h
  case h_1 => cases h
  case h_2 => cases h
  case h_3 hdirectory =>
      refine ⟨hdirectory, ?_⟩
      unfold hop
      split at h
      case isTrue hself =>
          cases h
          rw [if_pos hself]
      case isFalse hself =>
          rw [if_neg hself]
          split at h
          case isTrue hparent =>
              cases h
              rw [if_pos hparent]
          case isFalse hparent =>
              rw [if_neg hparent]
              split at h
              case isTrue => cases h
              case isFalse =>
                  cases h
                  rfl

theorem walk_cons {part : String} {rest : List String} {last : Location} :
    t.walk location (part :: rest) = .ok last ↔
      ∃ next, t.step location part = .ok next ∧ t.walk next rest = .ok last := by
  rw [walk]
  cases t.step location part with
  | error e => simp
  | ok next => simp

theorem walk_append {front rest : List String} {last : Location} :
    t.walk location (front ++ rest) = .ok last ↔
      ∃ next, t.walk location front = .ok next ∧ t.walk next rest = .ok last := by
  induction front generalizing location with
  | nil => simp [walk]
  | cons part front ih =>
      rw [List.cons_append, walk_cons]
      constructor
      · rintro ⟨next, hstep, hwalk⟩
        obtain ⟨middle, hfront, hrest⟩ := ih.mp hwalk
        exact ⟨middle, walk_cons.mpr ⟨next, hstep, hfront⟩, hrest⟩
      · rintro ⟨middle, hfront, hrest⟩
        obtain ⟨next, hstep, hwalk⟩ := walk_cons.mp hfront
        exact ⟨next, hstep, ih.mpr ⟨middle, hwalk, hrest⟩⟩

theorem walk_eq_foldl {parts : List String} (h : t.walk location parts = .ok next) :
    next = parts.foldl hop location := by
  induction parts generalizing location with
  | nil =>
      cases h
      rfl
  | cons part rest ih =>
      obtain ⟨middle, hstep, hwalk⟩ := walk_cons.mp h
      rw [List.foldl_cons, ← (step_ok hstep).2]
      exact ih hwalk

/-- A walk goes through directories only, so it is still there when they are. -/
theorem walk_of_directories
    (directories : ∀ l, t.node? l = some .directory → t'.node? l = some .directory)
    {parts : List String} (h : t.walk location parts = .ok next) :
    t'.walk location parts = .ok next := by
  induction parts generalizing location with
  | nil => exact h
  | cons part rest ih =>
      obtain ⟨middle, hstep, hwalk⟩ := walk_cons.mp h
      refine walk_cons.mpr ⟨middle, ?_, ih hwalk⟩
      have hdirectory := (step_ok hstep).1
      rw [step, hdirectory] at hstep
      rw [step, directories location hdirectory]
      exact hstep

/-! ## Paths that lead somewhere -/

/-- What it takes for a path to lead somewhere. -/
theorem locate_ok : t.locate p = .ok location ↔
    p ≠ "" ∧ Text.Utf8.size p ≤ pathLimit ∧
      t.walk (t.origin p) (p.parts ++ if p.endsInSlash then ["."] else []) = .ok location := by
  unfold locate
  split
  case isTrue hempty => simp [String.isEmpty_iff.mp hempty]
  case isFalse hempty =>
      rw [String.isEmpty_iff] at hempty
      split
      case isTrue hlong =>
          have hnot : ¬Text.Utf8.size p ≤ pathLimit := Nat.not_le.mpr hlong
          simp [hnot]
      case isFalse hshort => simp [hempty, Nat.not_lt.mp hshort]

/-- A path that leads somewhere leads to its place. -/
theorem place_of_locate (h : t.locate p = .ok location) : location = t.place p := by
  obtain ⟨-, -, hwalk⟩ := locate_ok.mp h
  have hlast := walk_eq_foldl hwalk
  rw [List.foldl_append] at hlast
  cases hslash : p.endsInSlash with
  | true => simpa [hslash, hop, place] using hlast
  | false => simpa [hslash, place] using hlast

theorem locate_of_directories (current : t'.current = t.current)
    (directories : ∀ l, t.node? l = some .directory → t'.node? l = some .directory)
    (h : t.locate p = .ok location) : t'.locate p = .ok location := by
  obtain ⟨hne, hsize, hwalk⟩ := locate_ok.mp h
  refine locate_ok.mpr ⟨hne, hsize, ?_⟩
  have horigin : t'.origin p = t.origin p := by simp [origin, current]
  rw [horigin]
  exact walk_of_directories directories hwalk

/-- A name in a directory is found in the place of the directory, which is there. -/
theorem locate_join {name : String} (hname : Path.Plain name)
    (h : t.locate (p.join name) = .ok location) :
    t.walk (t.origin p) p.parts = .ok (t.place p) ∧ t.node? (t.place p) = some .directory ∧
      location = t.place p ++ [name] := by
  obtain ⟨-, -, hwalk⟩ := locate_ok.mp h
  rw [Path.endsInSlash_join p hname, if_neg (by simp), List.append_nil, Path.parts_join p hname,
    origin, Path.isAbsolute_join p hname] at hwalk
  obtain ⟨middle, hfront, hlast⟩ := walk_append.mp hwalk
  obtain ⟨next, hstep, hend⟩ := walk_cons.mp hlast
  have hmiddle : middle = t.place p := walk_eq_foldl hfront
  rw [hmiddle] at hfront hstep
  refine ⟨hfront, (step_ok hstep).1, ?_⟩
  cases hend
  exact (step_ok hstep).2.trans (hop_plain hname _)

/-! ## Operations that succeed -/

theorem lookup_ok {node : Node} : t.lookup p = .ok (location, node) ↔
    t.locate p = .ok location ∧ t.node? location = some node := by
  unfold lookup
  cases t.locate p with
  | error e => simp
  | ok found =>
      dsimp only
      constructor
      · intro h
        split at h
        case h_1 node' hnode =>
            cases h
            exact ⟨rfl, hnode⟩
        case h_2 => cases h
      · rintro ⟨h, hnode⟩
        cases h
        rw [hnode]

theorem locateForWriting_ok (h : t.locateForWriting p = .ok location) :
    t.locate p = .ok location ∧ t.node? location ≠ some .directory := by
  unfold locateForWriting at h
  split at h
  case isTrue => split at h <;> cases h
  case isFalse =>
      split at h
      case h_1 => cases h
      case h_2 found hfound =>
          split at h
          case h_1 => cases h
          case h_2 hnode =>
              cases h
              exact ⟨hfound, hnode⟩

theorem locateForWriting_of_locate (hslash : p.endsInSlash = false)
    (h : t.locate p = .ok location) (free : t.node? location ≠ some .directory) :
    t.locateForWriting p = .ok location := by
  rw [locateForWriting, if_neg (by simp [hslash]), h]
  dsimp only
  split
  case h_1 hdirectory => exact absurd hdirectory free
  case h_2 => rfl

theorem write_ok {contents : Text.Bytes} (h : t.write p contents = .ok t') :
    t.locate p = .ok (t.place p) ∧ t.node? (t.place p) ≠ some .directory ∧
      t' = t.put (t.place p) (.file contents) := by
  unfold write at h
  split at h
  case h_1 location hlocation =>
      obtain ⟨hlocate, hnode⟩ := locateForWriting_ok hlocation
      have hplace := place_of_locate hlocate
      subst hplace
      cases h
      exact ⟨hlocate, hnode, rfl⟩
  case h_2 => cases h

theorem rename_ok {source target : Path} (h : t.rename source target = .ok t') :
    ∃ contents, t.node? (t.place source) = some (.file contents) ∧
      t.locate target = .ok (t.place target) ∧ t.node? (t.place target) ≠ some .directory ∧
      t' = (t.removeAt (t.place source)).put (t.place target) (.file contents) := by
  unfold rename at h
  split at h
  case h_1 => cases h
  case h_2 => cases h
  case h_3 location contents hsource =>
      obtain ⟨hlocate, hnode⟩ := lookup_ok.mp hsource
      have hplace := place_of_locate hlocate
      subst hplace
      split at h
      case h_1 => cases h
      case h_2 found hfound =>
          obtain ⟨htarget, hfree⟩ := locateForWriting_ok hfound
          have hplace := place_of_locate htarget
          subst hplace
          cases h
          exact ⟨contents, hnode, htarget, hfree, rfl⟩

theorem removeFile_ok (h : t.removeFile p = .ok t') :
    ∃ contents, t.lookup p = .ok (t.place p, .file contents) ∧ t' = t.removeAt (t.place p) := by
  unfold removeFile at h
  split at h
  case h_1 location contents hfound =>
      have hplace := place_of_locate (lookup_ok.mp hfound).1
      subst hplace
      cases h
      exact ⟨contents, hfound, rfl⟩
  case h_2 => cases h
  case h_3 => cases h

end Testbed.FileTree
