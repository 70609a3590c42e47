import Testbed.Proofs.Cache.WriteThrough

/-!
# Starting from files of any kind

A cache may be set up over a directory that holds the files of an earlier one, some of which may be
broken.  Each zone is then what its own file tells, whichever zones are used before it: the entries
of a store, or nothing if the file is broken or missing.  What is asked of other zones does not
change that, and neither do reads, removals of entries that are not there, and new caches.  A write
starts from what the file tells and puts a file in its place that can be read.
-/

namespace Testbed.Cache

/-! ## What a file tells -/

/-- What the file of a zone tells when it is read.  A file that is broken or missing tells that the
zone is empty. -/
inductive Tells : Except FileError Text.Bytes → Zone → Prop
  | intact {contents : Text.Bytes} {z : Zone} (h : Zone.ofBytes? contents = some z) :
      Tells (.ok contents) z
  | broken {contents : Text.Bytes} (h : Zone.ofBytes? contents = none) : Tells (.ok contents) {}
  | missing (cause : FileError) : Tells (.error cause) {}

theorem tells_toBytes (z : Zone) : Tells (.ok z.toBytes) z :=
  .intact (Zone.ofBytes?_toBytes z)

theorem Tells.loadZone_eq {t : FileTree} {path : Path} {z : Zone} (h : Tells (t.readBytes path) z) :
    loadZone t path = z := by
  rw [loadZone]
  generalize t.readBytes path = file at h
  cases h with
  | intact h => simp [h]
  | broken h => simp [h]
  | missing cause => rfl

/-- A written entry is read under its key, and all others as before. -/
theorem Zone.read_write (z : Zone) {α : Type} (decode : Json.Decoder α) (key : String)
    (value : Json) (other : String) :
    (z.write key value).read decode other =
      if other = key then Json.decodeText? decode value.compact else z.read decode other := by
  rw [Zone.read, Zone.write, Table.get?_insert]
  split
  case isTrue => rfl
  case isFalse => rfl

/-- The file of a zone that has been written is read as it was written. -/
theorem readBytes_dump {t : FileTree} (nested : t.Nested) {path : Path} {zone : String} {z : Zone}
    (done : (dump t (zonePath path zone) z).2 = .ok ()) :
    (dump t (zonePath path zone) z).1.readBytes (zonePath path zone) = .ok z.toBytes := by
  have hlocate := (spares_dump nested path zone z rfl).2 done
  have hslot := node?_slot_dump t path zone z rfl
  rw [done] at hslot
  rw [FileTree.readBytes, FileTree.lookup_ok.mpr ⟨hlocate, hslot⟩]

/-! ## Events that leave a zone as it is -/

/-- An event that asks for no change of a zone: a read, the removal of an entry that the zone does
not have, an operation on another zone, or a new cache. -/
def Event.Leaves (zone : String) (z : Zone) : Event → Prop
  | operation (.read _ _ _) => True
  | operation (.write other _ _) => other ≠ zone
  | operation (.cleanup (some other) (some key)) => other ≠ zone ∨ z.has key = false
  | operation (.cleanup (some other) none) => other ≠ zone
  | operation (.cleanup none _) => False
  | reopen => True

namespace Workspace

/-- A cache with a directory shows a zone, and would show it again if it were set up anew. -/
structure Shows (path : Path) (zone : String) (z : Zone) (w : Workspace) : Prop where
  location : w.cache.location = some path
  nested : w.files.Nested
  through : w.WrittenThrough
  view : w.view zone = z

variable {path : Path} {zone : String} {z : Zone} {w : Workspace} {fresh : Cache}

theorem Shows.read_fst (h : w.Shows path zone z) {α : Type} (decode : Json.Decoder α)
    (key : String) : (w.read decode zone key).1 = z.read decode key := by
  rw [Workspace.read_fst h.nested, h.view]

theorem Shows.view_run (h : w.Shows path zone z) {o : Operation}
    (leaves : (Event.operation o).Leaves zone z) : (o.run w).2.view zone = z := by
  cases o with
  | read decode other key =>
      rw [Operation.run, read_snd, (view_openZone_snd h.nested other).2, h.view]
  | write other key value =>
      have hne : zone ≠ other := Ne.symm leaves
      rw [Operation.run]
      obtain ⟨-, ⟨-, hview⟩ | ⟨-, hview⟩⟩ := view_write h.nested other key value
      · rw [hview, h.view]
      · rw [hview, if_neg hne, h.view]
  | cleanup other key =>
      rcases other with - | other
      · cases leaves
      rcases key with - | key
      · rw [Operation.run, Workspace.cleanup, h.through.view_removeZone h.location (Ne.symm leaves),
          h.view]
      · rw [Operation.run, Workspace.cleanup]
        obtain ⟨-, ⟨-, hview⟩ | ⟨-, hview⟩⟩ := view_removeEntry h.nested other key
        · rw [hview, h.view]
        · rw [hview, Operation.effect]
          split
          case isFalse => exact h.view
          case isTrue hhas =>
              have hne : zone ≠ other := by
                rintro rfl
                rcases leaves with hne | hnot
                · exact hne rfl
                · rw [h.view, hnot] at hhas
                  cases hhas
              rw [Zones.set_of_ne _ _ hne, h.view]

theorem Shows.run (h : w.Shows path zone z) {o : Operation}
    (leaves : (Event.operation o).Leaves zone z) : (o.run w).2.Shows path zone z where
  location := (run_snd w o).2.trans h.location
  nested := nested_run h.nested o
  through := h.through.run h.nested o
  view := h.view_run leaves

/-- A new cache in the same directory shows the zone as before. -/
theorem Shows.reopen (h : w.Shows path zone z) (hlocation : fresh.location = some path)
    (hzones : fresh.zones = ∅) : (w.reopen fresh).Shows path zone z where
  location := hlocation
  nested := nested_flushAll h.nested
  through := writtenThrough_of_no_zones (nested_flushAll h.nested) hzones
  view := (congrFun (h.through.view_reopen h.location hlocation hzones) zone).trans h.view

theorem Shows.after (h : w.Shows path zone z) (hlocation : fresh.location = some path)
    (hzones : fresh.zones = ∅) {history : List Event}
    (leaves : ∀ event ∈ history, event.Leaves zone z) :
    (Cache.after fresh w history).Shows path zone z := by
  induction history generalizing w with
  | nil => exact h
  | cons event rest ih =>
      have hrest := fun e he => leaves e (List.mem_cons_of_mem event he)
      cases event with
      | operation o => exact ih (h.run (leaves _ List.mem_cons_self)) hrest
      | reopen => exact ih (h.reopen hlocation hzones) hrest

/-- A write that succeeds changes the entry of its key. -/
theorem Shows.write (h : w.Shows path zone z) {key : String} {value : Json}
    (done : (w.write zone key value).1 = .ok ()) :
    (w.write zone key value).2.Shows path zone (z.write key value) where
  location := (write_snd w zone key value).2.trans h.location
  nested := (view_write h.nested zone key value).1
  through := h.through.write zone key value
  view := by
    obtain ⟨-, ⟨hfailed, -⟩ | ⟨-, hview⟩⟩ := view_write h.nested zone key value
    · exact absurd done hfailed
    · rw [hview, if_pos rfl, h.view]

/-- A write that succeeds leaves a file that tells what the zone is now. -/
theorem Shows.tells_write (h : w.Shows path zone z) {key : String} {value : Json}
    (done : (w.write zone key value).1 = .ok ()) :
    Tells ((w.write zone key value).2.files.readBytes (zonePath path zone))
      (z.write key value) := by
  obtain ⟨-, hlocation, -⟩ := openZone_snd w zone
  rcases view_openZone h.nested zone with ⟨w', hopen, hnested, -⟩ | ⟨e, w', hopen, -⟩
  · rw [hopen, h.location] at hlocation
    rw [write_of_openZone hopen, h.view, update, hlocation] at done ⊢
    have hread : ∀ files, dump w'.files (zonePath path zone) (z.write key value) = (files, .ok ()) →
        files.readBytes (zonePath path zone) = .ok (z.write key value).toBytes := by
      intro files hdump
      have hdone : (dump w'.files (zonePath path zone) (z.write key value)).2 = .ok () := by
        rw [hdump]
      have hread := readBytes_dump hnested hdone
      rwa [hdump] at hread
    dsimp only at done ⊢
    rcases hdump : dump w'.files (zonePath path zone) (z.write key value) with ⟨files, e | ⟨⟩⟩
    · rw [hdump] at done
      cases done
    · dsimp only [hold]
      rw [hread files hdump]
      exact tells_toBytes _
  · rw [write_of_error hopen] at done
    cases done

/-- A new cache shows a zone as its file tells. -/
theorem shows_ofSetup {s : Setup} (persistent : s.persistent = true) {t t' : FileTree}
    (nested : t.Nested) (made : t.makeDirectories s.directory = (t', none))
    (tells : Tells (t'.readBytes (zonePath s.directory zone)) z) :
    Workspace.Shows s.directory zone z ⟨ofSetup s, t⟩ where
  location := by simp [ofSetup, persistent]
  nested := nested
  through := writtenThrough_of_no_zones nested rfl
  view := by
    have hview : Workspace.view ⟨ofSetup s, t⟩ zone = opened t s.directory zone := by
      simp [Workspace.view, ofSetup, persistent]
    rw [hview, opened_of_made made, tells.loadZone_eq]

end Workspace

/-- A new cache over any directory reads each zone as its own file tells, whatever has been asked of
other zones before: the entries of a store, and none where the file is broken or missing.  A write
that succeeds adds to that, in the file as well, so a cache that is set up anew reads the written
entry and otherwise what the file told. -/
theorem zone_files_recovered {s : Setup} (persistent : s.persistent = true) {t t' : FileTree}
    (nested : t.Nested) (made : t.makeDirectories s.directory = (t', none)) {zone : String}
    {z : Zone} (tells : Tells (t'.readBytes (zonePath s.directory zone)) z) {front : List Event}
    (leaves : ∀ event ∈ front, event.Leaves zone z) :
    let w := after (ofSetup s) ⟨ofSetup s, t⟩ front
    (∀ (α : Type) (decode : Json.Decoder α) key,
        (w.read decode zone key).1 = z.read decode key) ∧
      ∀ key value, (w.write zone key value).1 = .ok () →
        Tells ((w.write zone key value).2.files.readBytes (zonePath s.directory zone))
            (z.write key value) ∧
          ∀ later, (∀ event ∈ later, event.Leaves zone (z.write key value)) →
            ∀ (α : Type) (decode : Json.Decoder α) other,
              ((after (ofSetup s) (w.write zone key value).2 later).read decode zone other).1 =
                if other = key then Json.decodeText? decode value.compact
                else z.read decode other := by
  intro w
  have hlocation : (ofSetup s).location = some s.directory := by simp [ofSetup, persistent]
  have start := Workspace.shows_ofSetup persistent nested made tells
  have hfront : w.Shows s.directory zone z := start.after hlocation rfl leaves
  refine ⟨fun α decode key => hfront.read_fst decode key, fun key value done => ?_⟩
  refine ⟨hfront.tells_write done, fun later hlater α decode other => ?_⟩
  rw [((hfront.write done).after hlocation rfl hlater).read_fst, Zone.read_write]

/-- One file is broken and another is a store.  Both are used before a write to one of them, and the
cache is set up anew. -/
theorem zone_files_recovered_broken :
    let store : Zone := ({} : Zone).write "old" (.string "kept")
    let t : FileTree := { nodes := [(["c"], .directory), (["c", "bad.json"], .file [0x7b, 0xff]),
      (["c", "good.json"], .file store.toBytes)] }
    let s : Setup := { directory := "c" }
    let front : List Event :=
      [.operation (.read Json.Decoder.string "good" "old"),
        .operation (.cleanup (some "bad") (some "old"))]
    let w := after (ofSetup s) ⟨ofSetup s, t⟩ front
    let again := fun zone => (w.write zone "new" (.string "value")).2.reopen (ofSetup s)
    let read := fun (w : Workspace) zone key => (w.read Json.Decoder.string zone key).1
    t.Nested ∧ t.makeDirectories "c" = (t, none) ∧
      (w.write "bad" "new" (.string "value")).1 = .ok () ∧
      (w.write "good" "new" (.string "value")).1 = .ok () ∧
      read w "bad" "old" = none ∧ read w "good" "old" = some "kept" ∧
      read (again "bad") "bad" "new" = some "value" ∧ read (again "bad") "bad" "old" = none ∧
      read (again "good") "good" "new" = some "value" ∧
      read (again "good") "good" "old" = some "kept" := by
  intro store t s front w again read
  have nested : t.Nested := FileTree.nested_of_nodes (by decide)
  have there : t.lookup "c" = .ok (["c"], .directory) := by decide
  have made := FileTree.makeDirectories_existing there
  have written : (w.write "bad" "new" (.string "value")).1 = .ok () ∧
      (w.write "good" "new" (.string "value")).1 = .ok () := by
    decide +kernel
  have broken : Tells (t.readBytes (zonePath "c" "bad")) {} := by
    have hfile : t.readBytes (zonePath "c" "bad") = .ok [0x7b, 0xff] := by decide
    rw [hfile]
    exact .broken (by decide +kernel)
  have intact : Tells (t.readBytes (zonePath "c" "good")) store := by
    have hfile : t.readBytes (zonePath "c" "good") = .ok store.toBytes := by decide
    rw [hfile]
    exact tells_toBytes store
  have value : Json.decodeText? Json.Decoder.string (Json.string "value").compact = some "value" :=
    Json.decodeText?_compact (.string "value") (by decide)
  have kept : store.read Json.Decoder.string "old" = some "kept" :=
    (Zone.read_write {} _ "old" (.string "kept") "old").trans
      (Json.decodeText?_compact (.string "kept") (by decide))
  -- What has been asked before leaves both zones as they are, and so does a new cache.
  have leavesBroken : ∀ event ∈ front, event.Leaves "bad" {} := by
    simp [front, Event.Leaves, Zone.has, Table.contains]
  have leavesIntact : ∀ event ∈ front, event.Leaves "good" store := by
    simp [front, Event.Leaves]
  have leavesAgain : ∀ zone z, ∀ event ∈ [Event.reopen], event.Leaves zone z := by
    simp [Event.Leaves]
  obtain ⟨readBroken, repaired⟩ :=
    zone_files_recovered (s := s) rfl nested made broken leavesBroken
  obtain ⟨readIntact, added⟩ := zone_files_recovered (s := s) rfl nested made intact leavesIntact
  have afterBroken := (repaired "new" (.string "value") written.1).2 _ (leavesAgain _ _)
  have afterIntact := (added "new" (.string "value") written.2).2 _ (leavesAgain _ _)
  refine ⟨nested, made, written.1, written.2, readBroken _ _ "old", ?_, ?_, ?_, ?_, ?_⟩
  · exact (readIntact _ _ "old").trans kept
  · exact (afterBroken _ _ "new").trans value
  · exact afterBroken _ _ "old"
  · exact (afterIntact _ _ "new").trans value
  · exact (afterIntact _ _ "old").trans kept

end Testbed.Cache
