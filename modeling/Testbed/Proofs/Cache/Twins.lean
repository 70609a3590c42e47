import Testbed.Proofs.Cache.Clearing
import Testbed.Proofs.Cache.Reach

/-!
# Caches that take the same course

Two caches over one directory, which is there, may differ in what they have in memory and in the
files of the directory, and still show the same.  Every event then succeeds for both or fails for
both, and they still show the same after it.  When everything is removed nothing is left of the
difference; if the directory is given by the empty path nothing is removed.
-/

namespace Testbed.Cache

open FileTree (Location Near)

/-- Where the directory is there, the use of a cache changes files in it alone. -/
theorem kept_near {path : Path} {t : FileTree} (made : t.makeDirectories path = (t, none)) :
    Kept path fun t' _ => t'.Nested ∧ Near (t.place path) t t' where
  nested := And.left
  makeDirectories := by
    rintro t' - ⟨nested, near⟩
    rw [near.makeDirectories made]
    exact ⟨nested, near⟩
  dump := by
    rintro t' - zone z ⟨nested, near⟩
    have hdump := near_dump nested path zone z
    rw [FileTree.place_congr near.current] at hdump
    exact ⟨(spares_dump nested path zone z rfl).1.nested nested, near.trans hdump⟩

/-- Near trees take the same files. -/
theorem sameReach_of_near {path : Path} {base : Location} {t t' : FileTree}
    (made : t.makeDirectories path = (t, none)) (near : Near base t t') : SameReach path t t' :=
  sameReach_of_made made (near.makeDirectories made) fun _ => ⟨(·.near near.symm), (·.near near)⟩

/-- Which events of a history succeed. -/
def outcomes (fresh : Cache) : Workspace → List Event → List Bool
  | _, [] => []
  | w, event :: rest => event.succeeds w :: outcomes fresh (event.step fresh w) rest

namespace Workspace

variable {w w' : Workspace} {fresh fresh' : Cache} {path : Path} {zone : String} {o : Operation}
  {l : Location}

/-- Every read answers alike. -/
def SameReads (w w' : Workspace) : Prop :=
  ∀ (α : Type) (decode : Json.Decoder α) zone key,
    (w'.read decode zone key).1 = (w.read decode zone key).1

/-- Whatever happens succeeds or fails alike, and all reads after it answer alike. -/
def SameCourse (fresh : Cache) (w w' : Workspace) : Prop :=
  ∀ later, outcomes fresh w' later = outcomes fresh w later ∧
    SameReads (after fresh w later) (after fresh w' later)

theorem SameCourse.refl (fresh : Cache) (w : Workspace) : SameCourse fresh w w :=
  fun _ => ⟨rfl, fun _ _ _ _ => rfl⟩

/-- Operations on entries do not change what can be written. -/
theorem sameReach_run (nested : w.files.Nested) (hlocation : w.cache.location = some path)
    (entry : o.onEntry = true) : SameReach path w.files (o.run w).2.files :=
  ((kept_reach path w.files).run hlocation ⟨nested, .refl path w.files⟩ entry).2

/-- Two caches show the same and can write the same in a directory. -/
structure Alike (path : Path) (w w' : Workspace) : Prop where
  location : w.cache.location = some path ∧ w'.cache.location = some path
  nested : w.files.Nested ∧ w'.files.Nested
  rooted : w.Rooted ∧ w'.Rooted
  view : w'.view = w.view
  reach : SameReach path w.files w'.files

theorem Alike.succeeds_iff (h : Alike path w w') (entry : o.onEntry = true) :
    (o.run w').1.Succeeds ↔ (o.run w).1.Succeeds := by
  rcases Operation.cases_of_onEntry entry with
    ⟨α, decode, zone, key, rfl⟩ | ⟨zone, key, value, rfl⟩ | ⟨zone, key, rfl⟩
  · exact Iff.rfl
  · rw [Operation.run, Operation.run, Answer.succeeds_done, Answer.succeeds_done,
      write_ok_iff h.rooted.1 h.location.1, write_ok_iff h.rooted.2 h.location.2,
      h.reach.takes zone]
  · rw [Operation.run, Operation.run, Answer.succeeds_done, Answer.succeeds_done, cleanup,
      cleanup, removeEntry_ok_iff h.rooted.1 h.location.1,
      removeEntry_ok_iff h.rooted.2 h.location.2, h.view, h.reach.takes zone, h.reach.opens]

theorem Alike.run (h : Alike path w w') (entry : o.onEntry = true) :
    Alike path (o.run w).2 (o.run w').2 where
  location := ⟨(run_snd w o).2.trans h.location.1, (run_snd w' o).2.trans h.location.2⟩
  nested := ⟨nested_run h.nested.1 o, nested_run h.nested.2 o⟩
  rooted := ⟨h.rooted.1.run h.nested.1 o, h.rooted.2.run h.nested.2 o⟩
  view := by
    rw [view_run h.nested.1 entry, view_run h.nested.2 entry, h.view]
    exact if_congr (h.succeeds_iff entry) rfl rfl
  reach := by
    have hreach := sameReach_run h.nested.1 h.location.1 entry
    have hreach' := sameReach_run h.nested.2 h.location.2 entry
    exact (hreach.symm.trans h.reach).trans hreach'

/-- Operations on entries succeed or fail alike, and leave the caches alike. -/
theorem Alike.after (h : Alike path w w') (fresh : Cache) {later : List Event}
    (entries : ∀ event ∈ later, event.onEntry = true) :
    outcomes fresh w' later = outcomes fresh w later ∧
      Alike path (after fresh w later) (after fresh w' later) := by
  induction later generalizing w w' with
  | nil => exact ⟨rfl, h⟩
  | cons event rest ih =>
      have hentry := entries event List.mem_cons_self
      have hrest := fun e he => entries e (List.mem_cons_of_mem event he)
      cases event with
      | reopen => cases hentry
      | operation o =>
          obtain ⟨houtcomes, hafter⟩ := ih (h.run hentry) hrest
          refine ⟨?_, hafter⟩
          rw [outcomes, outcomes]
          exact congrArg₂ List.cons (decide_eq_decide.mpr (h.succeeds_iff hentry)) houtcomes

/-! ## Removals -/

/-- A zone is removed unless there is a directory in the place of its file. -/
theorem removeZone_ok_iff (hlocation : w.cache.location = some path) (zone : String) :
    (w.removeZone zone).1 = .ok () ↔
      ∀ l, (w.flushZone zone).lookup (zonePath path zone) ≠ .ok (l, .directory) := by
  rw [removeZone_of_persistent hlocation]
  dsimp only
  unfold FileTree.exists? FileTree.removeFile
  rcases (w.flushZone zone).lookup (zonePath path zone) with e | ⟨l, contents | -⟩ <;>
    simp [Except.isOk, Except.toBool]

/-- A removed zone is shown as empty, even if its removal has failed. -/
theorem view_removeZone_self (nested : w.files.Nested) (hlocation : w.cache.location = some path)
    (made : w.files.makeDirectories path = (w.files, none)) (zone : String) :
    (w.removeZone zone).2.view zone = {} := by
  have hmade := (near_removeZone nested hlocation zone).makeDirectories made
  rw [view, cache_removeZone, Table.get?_erase, if_pos rfl, hlocation]
  dsimp only
  rw [opened_of_made hmade, loadZone, FileTree.readBytes]
  rcases hlookup : (w.removeZone zone).2.files.lookup (zonePath path zone) with
    e | ⟨l, contents | -⟩
  · rfl
  · exact absurd hlookup (lookup_removeZone_ne_file nested hlocation zone l contents)
  · rfl

theorem removeAll_of_lookup (hlocation : w.cache.location = some path)
    (there : w.flushAll.lookup path = .ok (l, .directory)) :
    w.removeAll =
      ((w.flushAll.removeDirectory path).2.elim (.ok ()) fun cause =>
          .error (.directory path cause),
        ⟨{ w.cache with zones := ∅ }, (w.flushAll.removeDirectory path).1⟩) := by
  have hthere : w.flushAll.exists? path = true := by
    simp [FileTree.exists?, there, Except.isOk, Except.toBool]
  rw [removeAll, hlocation]
  dsimp only
  rw [if_pos hthere]
  rcases w.flushAll.removeDirectory path with ⟨files, - | cause⟩ <;> rfl

/-- In a directory that is given by the empty path, nothing but the memory is removed. -/
theorem removeAll_of_empty (hlocation : w.cache.location = some "") :
    w.removeAll = (.ok (), w.reopen { w.cache with zones := ∅ }) := by
  rw [removeAll, hlocation]
  rfl

/-! ## Twins -/

/-- Two caches over one directory, which is there, that show the same and differ in the files of the
directory alone. -/
structure Twins (path : Path) (w w' : Workspace) : Prop where
  enabled : w'.cache.enabled = w.cache.enabled
  location : w.cache.location = some path ∧ w'.cache.location = some path
  through : w.WrittenThrough ∧ w'.WrittenThrough
  made : w.files.makeDirectories path = (w.files, none)
  near : Near (w.files.place path) w.files w'.files
  view : w'.view = w.view

/-- Trees that differ from those of twins in files of the directory alone differ from each other in
such files alone. -/
theorem Twins.near_trans (h : Twins path w w') {t t' : FileTree}
    (near : Near (w.files.place path) w.files t)
    (near' : Near (w'.files.place path) w'.files t') : Near (w.files.place path) t t' := by
  rw [FileTree.place_congr h.near.current] at near'
  exact (near.symm.trans h.near).trans near'

/-- What becomes of twins are twins if they still show the same, and if only files of the directory
have changed. -/
theorem Twins.of_near {u u' : Workspace} (h : Twins path w w')
    (enabled : u'.cache.enabled = u.cache.enabled)
    (location : u.cache.location = some path ∧ u'.cache.location = some path)
    (through : u.WrittenThrough ∧ u'.WrittenThrough)
    (near : Near (w.files.place path) w.files u.files)
    (near' : Near (w'.files.place path) w'.files u'.files) (view : u'.view = u.view) :
    Twins path u u' where
  enabled := enabled
  location := location
  through := through
  made := near.makeDirectories h.made
  near := by
    rw [FileTree.place_congr near.current]
    exact h.near_trans near near'
  view := view

theorem Twins.nested (h : Twins path w w') : w.files.Nested ∧ w'.files.Nested :=
  ⟨(h.through.1 path h.location.1).nested, (h.through.2 path h.location.2).nested⟩

theorem Twins.made' (h : Twins path w w') : w'.files.makeDirectories path = (w'.files, none) :=
  h.near.makeDirectories h.made

theorem Twins.alike (h : Twins path w w') : Alike path w w' where
  location := h.location
  nested := h.nested
  rooted := by
    constructor
    · intro path' _ _ hpath _
      cases h.location.1.symm.trans hpath
      exact h.made
    · intro path' _ _ hpath _
      cases h.location.2.symm.trans hpath
      exact h.made'
  view := h.view
  reach := sameReach_of_near h.made h.near

/-- Where the directory is there, operations on entries change files in it alone. -/
theorem near_run (nested : w.files.Nested) (hlocation : w.cache.location = some path)
    (made : w.files.makeDirectories path = (w.files, none)) (entry : o.onEntry = true) :
    Near (w.files.place path) w.files (o.run w).2.files :=
  ((kept_near made).run hlocation ⟨nested, .refl _ w.files⟩ entry).2

theorem Twins.run (h : Twins path w w') (entry : o.onEntry = true) :
    Twins path (o.run w).2 (o.run w').2 := by
  obtain ⟨henabled, hlocation⟩ := run_snd w o
  obtain ⟨henabled', hlocation'⟩ := run_snd w' o
  apply h.of_near
  · rw [henabled, henabled', h.enabled]
  · exact ⟨hlocation.trans h.location.1, hlocation'.trans h.location.2⟩
  · exact ⟨h.through.1.run h.nested.1 o, h.through.2.run h.nested.2 o⟩
  · exact near_run h.nested.1 h.location.1 h.made entry
  · exact near_run h.nested.2 h.location.2 h.made' entry
  · exact (h.alike.run entry).view

/-- Letting go of twins leaves twins. -/
theorem Twins.reopen (h : Twins path w w') (henabled : fresh'.enabled = fresh.enabled)
    (hlocation : fresh.location = some path ∧ fresh'.location = some path)
    (hzones : fresh.zones = ∅ ∧ fresh'.zones = ∅) :
    Twins path (w.reopen fresh) (w'.reopen fresh') := by
  have hnested := nested_flushAll h.nested.1
  have hnested' := nested_flushAll h.nested.2
  apply h.of_near henabled hlocation
  · exact ⟨writtenThrough_of_no_zones hnested hzones.1,
      writtenThrough_of_no_zones hnested' hzones.2⟩
  · exact near_flushAll h.nested.1 h.location.1
  · exact near_flushAll h.nested.2 h.location.2
  · rw [h.through.1.view_reopen h.location.1 hlocation.1 hzones.1,
      h.through.2.view_reopen h.location.2 hlocation.2 hzones.2, h.view]

theorem Twins.removeZone_ok_iff (h : Twins path w w') (zone : String) :
    (w'.removeZone zone).1 = .ok () ↔ (w.removeZone zone).1 = .ok () := by
  have near := h.near_trans (near_flushZone h.nested.1 h.location.1 zone)
    (near_flushZone h.nested.2 h.location.2 zone)
  rw [Workspace.removeZone_ok_iff h.location.1, Workspace.removeZone_ok_iff h.location.2]
  constructor
  · exact fun hnot l hlookup => hnot l (near.lookup_directory hlookup)
  · exact fun hnot l hlookup => hnot l (near.symm.lookup_directory hlookup)

theorem Twins.removeZone (h : Twins path w w') (zone : String) :
    Twins path (w.removeZone zone).2 (w'.removeZone zone).2 := by
  apply h.of_near
  · rw [cache_removeZone, cache_removeZone]
    exact h.enabled
  · rw [cache_removeZone, cache_removeZone]
    exact h.location
  · exact ⟨h.through.1.removeZone h.nested.1 zone, h.through.2.removeZone h.nested.2 zone⟩
  · exact near_removeZone h.nested.1 h.location.1 zone
  · exact near_removeZone h.nested.2 h.location.2 zone
  · funext other
    by_cases hzone : other = zone
    · rw [hzone, view_removeZone_self h.nested.1 h.location.1 h.made,
        view_removeZone_self h.nested.2 h.location.2 h.made']
    · rw [h.through.1.view_removeZone h.location.1 hzone,
        h.through.2.view_removeZone h.location.2 hzone, h.view]

/-- Removing everything leaves the same of both; or, in a directory that is given by the empty path,
twins. -/
theorem Twins.removeAll (h : Twins path w w') :
    w'.removeAll.1 = w.removeAll.1 ∧
      (w'.removeAll.2 = w.removeAll.2 ∨ Twins path w.removeAll.2 w'.removeAll.2) := by
  have hflushed := near_flushAll h.nested.1 h.location.1
  have near := h.near_trans hflushed (near_flushAll h.nested.2 h.location.2)
  rcases FileTree.makeDirectories_eq_self_iff.mp (hflushed.makeDirectories h.made) with
    rfl | ⟨l, hlookup⟩
  · rw [removeAll_of_empty h.location.1, removeAll_of_empty h.location.2]
    exact ⟨rfl, Or.inr (h.reopen h.enabled h.location ⟨rfl, rfl⟩)⟩
  · have hplace : l = w.files.place path := by
      obtain ⟨hlocate, -⟩ := FileTree.lookup_ok.mp hlookup
      exact (FileTree.place_of_locate hlocate).trans (FileTree.place_congr hflushed.current path)
    subst hplace
    have hsame := near.removeDirectory hlookup
    have hcache : ({ w'.cache with zones := ∅ } : Cache) = { w.cache with zones := ∅ } := by
      rw [Cache.mk.injEq]
      exact ⟨h.enabled, h.location.2.trans h.location.1.symm, rfl⟩
    have hremove : w'.removeAll = w.removeAll := by
      rw [removeAll_of_lookup h.location.1 hlookup,
        removeAll_of_lookup h.location.2 (near.lookup_directory hlookup), hsame, hcache]
    exact ⟨congrArg Prod.fst hremove, Or.inl (congrArg Prod.snd hremove)⟩

/-! ## Histories -/

/-- Every event succeeds for both twins or fails for both, and leaves twins, or twice the same. -/
theorem Twins.step (h : Twins path w w') (hlocation : fresh.location = some path)
    (hzones : fresh.zones = ∅) (event : Event) :
    event.succeeds w' = event.succeeds w ∧
      (event.step fresh w' = event.step fresh w ∨
        Twins path (event.step fresh w) (event.step fresh w')) := by
  cases event with
  | reopen => exact ⟨rfl, Or.inr (h.reopen rfl ⟨hlocation, hlocation⟩ ⟨hzones, hzones⟩)⟩
  | operation o =>
      rw [Event.succeeds, Event.succeeds, decide_eq_decide]
      cases hentry : o.onEntry with
      | true => exact ⟨h.alike.succeeds_iff hentry, Or.inr (h.run hentry)⟩
      | false =>
          rcases Operation.cases_of_not_onEntry hentry with ⟨key, rfl⟩ | ⟨zone, rfl⟩ <;>
            rw [Operation.run, Operation.run, Answer.succeeds_done, Answer.succeeds_done]
          · obtain ⟨hanswer, hafter⟩ := h.removeAll
            exact ⟨by rw [cleanup, cleanup, hanswer], hafter⟩
          · exact ⟨h.removeZone_ok_iff zone, Or.inr (h.removeZone zone)⟩

end Workspace

end Testbed.Cache
