import Mathlib.Data.List.DropRight
import Testbed.Proofs.Cache.Backing
import Testbed.Proofs.Cache.Lookup

/-!
# What becomes of an entry

An entry is told by its text, as the cache shows it.  It is changed by writes under its zone and
key, and it goes with the cleanups that clear it: those that are about it, unless everything is to
be removed from a directory that is given by the empty path.  Letting go of the cache keeps it if
there is a directory.  What is left of a history is then what has happened since the entry was
cleared.
-/

namespace Testbed.Cache

/-- Whether a cleanup is about an entry. -/
def covers : (zone key : Option String) → (entryZone entryKey : String) → Bool
  | none, _, _, _ => true
  | some zone, none, entryZone, _ => entryZone == zone
  | some zone, some key, entryZone, entryKey => entryZone == zone && entryKey == key

/-- Whether a cleanup clears an entry of a cache that is set up like `c`. -/
def clears (c : Cache) (zone key : Option String) (entryZone entryKey : String) : Bool :=
  covers zone key entryZone entryKey && (zone.isSome || c.location != some "")

/-- Only the empty path as the directory makes a cleanup that is about an entry not clear it. -/
theorem clears_of_named {c : Cache} (named : c.location ≠ some "") (zone key : Option String)
    (entryZone entryKey : String) :
    clears c zone key entryZone entryKey = covers zone key entryZone entryKey := by
  rw [clears, bne_iff_ne.mpr named, Bool.or_true, Bool.and_true]

theorem Zone.get?_of_not_has {z : Zone} {key : String} (h : ¬z.has key = true) :
    z.entries.get? key = none := by
  rw [has, Bool.or_eq_true, not_or, Table.contains_iff] at h
  rw [Option.eq_none_iff_forall_ne_some]
  exact fun text htext => h.1 ⟨text, htext⟩

/-- Whether it is not the writing of a zone's file that has failed. -/
def isWritten : Except Error Unit → Bool
  | .error (.store _ _) => false
  | _ => true

namespace Workspace

/-- The text of an entry. -/
def text? (w : Workspace) (zone key : String) : Option String := (w.view zone).entries.get? key

variable {fresh : Cache} {w : Workspace} {zone key : String}

theorem read_eq_text? (nested : w.files.Nested) {α : Type} (decode : Json.Decoder α)
    (zone key : String) :
    (w.read decode zone key).1 = (w.text? zone key).bind (Json.decodeText? decode) :=
  read_fst nested decode zone key

theorem text?_openZone (nested : w.files.Nested) (zone other name : String) :
    (w.openZone zone).2.text? other name = w.text? other name := by
  rw [text?, (view_openZone_snd nested zone).2]
  rfl

theorem text?_write (nested : w.files.Nested) {value : Json}
    (done : (w.write zone key value).1 = .ok ()) (other name : String) :
    (w.write zone key value).2.text? other name =
      if other = zone ∧ name = key then some value.compact else w.text? other name := by
  obtain ⟨-, ⟨hfailed, -⟩ | ⟨-, hview⟩⟩ := view_write nested zone key value
  · exact absurd done hfailed
  · rw [text?, hview]
    by_cases hzone : other = zone
    · subst hzone
      simp only [if_true, true_and]
      exact Table.get?_insert _ key value.compact name
    · simp [hzone, text?]

theorem text?_write_of_failure (nested : w.files.Nested) {value : Json}
    (failed : (w.write zone key value).1 ≠ .ok ()) (other name : String) :
    (w.write zone key value).2.text? other name = w.text? other name := by
  obtain ⟨-, ⟨-, hview⟩ | ⟨hdone, -⟩⟩ := view_write nested zone key value
  · rw [text?, hview]
    rfl
  · exact absurd hdone failed

theorem text?_write_of_ne (nested : w.files.Nested) (value : Json) {other name : String}
    (hne : ¬(other = zone ∧ name = key)) :
    (w.write zone key value).2.text? other name = w.text? other name := by
  by_cases done : (w.write zone key value).1 = .ok ()
  · rw [text?_write nested done, if_neg hne]
  · exact text?_write_of_failure nested done other name

theorem text?_removeEntry (nested : w.files.Nested)
    (written : isWritten (w.removeEntry zone key).1 = true) (other name : String) :
    (w.removeEntry zone key).2.text? other name =
      if other = zone ∧ name = key then none else w.text? other name := by
  rcases view_openZone nested zone with
    ⟨w', hopen, hnested, hview, hheld⟩ | ⟨e, w', hopen, -, hview, hempty⟩
  · rw [removeEntry_of_openZone hopen] at written ⊢
    by_cases hhas : (w.view zone).has key = true
    · rw [if_pos hhas] at written ⊢
      obtain ⟨-, ⟨⟨cause, hfailed⟩, -⟩ | ⟨-, herased⟩⟩ :=
        view_update hnested hheld ((w.view zone).erase key)
      · rw [hfailed] at written
        cases written
      · rw [text?, herased, hview]
        by_cases hzone : other = zone
        · subst hzone
          simp only [if_true, true_and]
          exact Table.get?_erase _ key name
        · simp [hzone, text?]
    · rw [if_neg hhas, text?, hview]
      split
      case isFalse => rfl
      case isTrue hsame =>
          obtain ⟨rfl, rfl⟩ := hsame
          exact Zone.get?_of_not_has hhas
  · rw [removeEntry_of_error hopen, text?, hview]
    split
    case isFalse => rfl
    case isTrue hsame =>
        rw [hsame.1, hempty]
        rfl

/-- A cleanup removes the entries that it clears, and leaves all others as they are, even if it
fails; only the zone of a single entry must be written. -/
theorem Backed.cleanup (h : w.Backed fresh) {zone key : Option String}
    (written : isWritten (w.cleanup zone key).1 = true) :
    (w.cleanup zone key).2.Backed fresh ∧ ∀ other name,
      (w.cleanup zone key).2.text? other name =
        if clears fresh zone key other name then none else w.text? other name := by
  rcases zone with - | zone
  · obtain ⟨hbacked, hview⟩ := h.removeAll
    refine ⟨hbacked, fun other name => ?_⟩
    rw [text?]
    by_cases hempty : fresh.location = some ""
    · rw [if_pos hempty] at hview
      simp only [Workspace.cleanup, hview]
      simp [clears, hempty, text?]
    · rw [if_neg hempty] at hview
      simp only [Workspace.cleanup, hview other]
      simp [clears, covers, hempty]
  · rcases key with - | key
    · obtain ⟨hbacked, hempty, hothers⟩ := h.removeZone zone
      refine ⟨hbacked, fun other name => ?_⟩
      by_cases hzone : other = zone
      · subst hzone
        rw [text?, Workspace.cleanup, hempty]
        simp [clears, covers]
      · rw [text?, Workspace.cleanup, hothers other hzone]
        simp [clears, covers, hzone, text?]
    · refine ⟨h.removeEntry zone key, fun other name => ?_⟩
      rw [Workspace.cleanup, text?_removeEntry h.nested written]
      simp [clears, covers]

/-- A new cache over a directory that nobody has used has no entries. -/
theorem text?_ofSetup {s : Setup} {t : FileTree}
    (unused : s.persistent = true → Unused s.directory t) (zone key : String) :
    Workspace.text? ⟨ofSetup s, t⟩ zone key = none := by
  rcases hpersistent : s.persistent with - | -
  · rw [text?, view_of_inMemory (by simp [ofSetup, hpersistent])]
    rfl
  · have hview : Workspace.view ⟨ofSetup s, t⟩ zone = opened t s.directory zone := by
      simp [view, ofSetup, hpersistent]
    rw [text?, hview]
    rcases opened_cases t s.directory zone with hempty | hstored
    · rw [hempty]
      rfl
    · rw [hstored, unused hpersistent]
      rfl

/-- Letting go of a cache changes nothing that it shows if it has a directory. -/
theorem Backed.reopen (h : w.Backed fresh) (hzones : fresh.zones = ∅) :
    (w.reopen fresh).Backed fresh ∧ ∀ zone key,
      (w.reopen fresh).text? zone key =
        if fresh.location.isNone then none else w.text? zone key := by
  have hmemory : ∀ zone, fresh.zones.get? zone = none := by
    intro zone
    rw [hzones]
    rfl
  have hnested := nested_flushAll h.nested
  rcases hlocation : fresh.location with - | path
  · refine ⟨⟨rfl, rfl, hnested, by simp [hlocation]⟩, fun zone key => ?_⟩
    rw [text?, view_of_inMemory hlocation, Workspace.reopen, hmemory]
    rfl
  · have backing := h.flushAll hlocation
    have hview : (w.reopen fresh).view = w.view := by
      apply view_of_backing hlocation _ backing
      intro zone z hget
      rw [Workspace.reopen, hmemory] at hget
      cases hget
    refine ⟨⟨rfl, rfl, hnested, ?_⟩, fun zone key => by rw [text?, hview]; rfl⟩
    intro path' hpath'
    cases hlocation.symm.trans hpath'
    rwa [hview]

end Workspace

/-! ## Calls -/

namespace Lookup

variable {A T E S : Type} {l : Lookup A T E S} {fresh : Cache} {w : Workspace} {args : A}
  {zone : String}

/-- Whether the value is written, if a call computes one. -/
def writes (l : Lookup A T E S) (w : Workspace) (args : A) : Bool :=
  match l.zone args, (l.call w args).1 with
  | .ok zone, ⟨.ok value, true⟩ =>
    ((w.openZone zone).2.write zone l.name (l.encode (l.beforeWrite value args))).1.isOk
  | _, _ => true

/-- What a call stores. -/
def stored? (l : Lookup A T E S) (args : A) : Answer E T → Option S
  | ⟨.ok value, true⟩ => some (l.beforeWrite value args)
  | _ => none

/-- A call changes the entry of its name in its zone, if it computes a value, and no other. -/
theorem text?_call (h : w.Backed fresh) (enabled : fresh.enabled = true)
    (hzone : l.zone args = .ok zone) (written : l.writes w args = true) :
    (l.call w args).2.Backed fresh ∧ ∀ other name,
      (l.call w args).2.text? other name =
        if other = zone ∧ name = l.name then
          ((l.stored? args (l.call w args).1).map fun entry => (l.encode entry).compact).or
            (w.text? other name)
        else w.text? other name := by
  have hopened := h.openZone zone
  have hsame := Workspace.text?_openZone h.nested zone
  rcases call_cases hzone (h.enabled.trans enabled) with
    ⟨value, -, hcall⟩ | ⟨e, -, hcall⟩ | ⟨value, -, hcall⟩
  · rw [hcall]
    refine ⟨hopened, fun other name => ?_⟩
    simp [hsame, stored?]
  · rw [hcall]
    refine ⟨hopened, fun other name => ?_⟩
    simp [hsame, stored?, Answer.ofComputation, Except.mapError]
  · have done : ((w.openZone zone).2.write zone l.name
        (l.encode (l.beforeWrite value args))).1 = .ok () := by
      rw [writes, hzone, hcall] at written
      rcases hresult : ((w.openZone zone).2.write zone l.name
        (l.encode (l.beforeWrite value args))).1 with e | ⟨⟩
      · simp [Answer.ofComputation, Except.mapError, hresult, Except.isOk, Except.toBool] at written
      · rfl
    rw [hcall]
    refine ⟨hopened.write zone l.name _, fun other name => ?_⟩
    rw [Workspace.text?_write hopened.nested done, hsame]
    rfl

end Lookup

/-! ## Events -/

/-- Whether an operation is about single entries, and not about a whole zone or everything. -/
def Operation.onEntry : Operation → Bool
  | cleanup zone key => zone.isSome && key.isSome
  | _ => true

theorem Operation.cases_of_onEntry {o : Operation} (entry : o.onEntry = true) :
    (∃ (α : Type) (decode : Json.Decoder α) (zone key : String), o = read decode zone key) ∨
      (∃ zone key value, o = write zone key value) ∨
      ∃ zone key, o = cleanup (some zone) (some key) := by
  rcases o with ⟨decode, zone, key⟩ | ⟨zone, key, value⟩ | ⟨- | zone, - | key⟩
  case read => exact Or.inl ⟨_, decode, zone, key, rfl⟩
  case write => exact Or.inr (Or.inl ⟨zone, key, value, rfl⟩)
  case cleanup.some.some => exact Or.inr (Or.inr ⟨zone, key, rfl⟩)
  all_goals cases entry

theorem Operation.cases_of_not_onEntry {o : Operation} (whole : o.onEntry = false) :
    (∃ key, o = cleanup none key) ∨ ∃ zone, o = cleanup (some zone) none := by
  rcases o with ⟨_, _, _⟩ | ⟨_, _, _⟩ | ⟨- | zone, - | key⟩
  case cleanup.none.none => exact Or.inl ⟨none, rfl⟩
  case cleanup.none.some => exact Or.inl ⟨some key, rfl⟩
  case cleanup.some.none => exact Or.inr ⟨zone, rfl⟩
  all_goals cases whole

/-- The texts of the entries after an operation, for a cache that is set up like another one. -/
def Operation.texts (c : Cache) (before : String → String → Option String) :
    Operation → String → String → Option String
  | read _ _ _ => before
  | write zone key value => fun other name =>
      if other = zone ∧ name = key then some value.compact else before other name
  | cleanup zone key => fun other name =>
      if clears c zone key other name then none else before other name

namespace Event

/-- Whether an event is an operation on single entries. -/
def onEntry : Event → Bool
  | operation o => o.onEntry
  | reopen => false

/-- The workspace after an event. -/
def step (fresh : Cache) (w : Workspace) : Event → Workspace
  | operation o => (o.run w).2
  | reopen => w.reopen fresh

/-- Whether an event succeeds. -/
def succeeds (w : Workspace) : Event → Bool
  | operation o => decide (o.run w).1.Succeeds
  | reopen => true

/-- Whether an event is a cleanup of an entry. -/
def covers (zone key : String) : Event → Bool
  | operation (.cleanup z k) => Cache.covers z k zone key
  | _ => false

/-- Whether an event clears an entry of a cache that is set up like `c`; a new cache without a
directory is empty. -/
def clears (c : Cache) (zone key : String) : Event → Bool
  | operation (.cleanup z k) => Cache.clears c z k zone key
  | reopen => c.location.isNone
  | _ => false

/-- With a directory that is not given by the empty path, what clears are the cleanups. -/
theorem clears_of_directory {c : Cache} {path : Path} (hpath : c.location = some path)
    (named : path ≠ "") : (clears c : String → String → Event → Bool) = covers := by
  have hnamed : c.location ≠ some "" := fun h => named (Option.some.inj (hpath.symm.trans h))
  funext zone key event
  rcases event with (⟨decode, z, k⟩ | ⟨z, k, value⟩ | ⟨z, k⟩) | -
  case operation.read => rfl
  case operation.write => rfl
  case operation.cleanup => exact clears_of_named hnamed z k zone key
  case reopen => exact congrArg Option.isNone hpath

/-- The texts of the entries after an event.  The removal of a zone or of everything takes the
entries away even if it fails, and a new cache keeps them if it has a directory. -/
def texts (c : Cache) (succeeds : Bool) (before : String → String → Option String) :
    Event → String → String → Option String
  | operation o => if succeeds || !o.onEntry then o.texts c before else before
  | reopen => if c.location.isNone then fun _ _ => none else before

end Event

/-- What ties the files to the zones is kept by the operations on entries. -/
theorem Kept.run {path : Path} {P : FileTree → Zones → Prop} (kept : Kept path P) {w : Workspace}
    (hlocation : w.cache.location = some path) (h : P w.files w.view) {o : Operation}
    (entry : o.onEntry = true) : P (o.run w).2.files (o.run w).2.view := by
  rcases Operation.cases_of_onEntry entry with
    ⟨α, decode, zone, key, rfl⟩ | ⟨zone, key, value, rfl⟩ | ⟨zone, key, rfl⟩
  · rw [Operation.run, Workspace.read_snd]
    exact kept.openZone hlocation h zone
  · exact kept.write hlocation h zone key value
  · exact kept.removeEntry hlocation h zone key

namespace Workspace

variable {fresh : Cache} {w w' : Workspace} {o : Operation}

/-- An operation on an entry does to the zones what it should, or nothing if it fails. -/
theorem view_run (nested : w.files.Nested) (entry : o.onEntry = true) :
    (o.run w).2.view = if (o.run w).1.Succeeds then o.effect w.view else w.view := by
  rcases Operation.cases_of_onEntry entry with
    ⟨α, decode, zone, key, rfl⟩ | ⟨zone, key, value, rfl⟩ | ⟨zone, key, rfl⟩
  · have found : (Answer.found (w.read decode zone key).1).Succeeds := trivial
    rw [Operation.run, if_pos found, read_snd]
    exact (view_openZone_snd nested zone).2
  · rw [Operation.run]
    obtain ⟨-, ⟨hfailed, hview⟩ | ⟨hdone, hview⟩⟩ := view_write nested zone key value
    · rw [if_neg (hfailed ∘ Answer.succeeds_done.mp), hview]
    · rw [if_pos (Answer.succeeds_done.mpr hdone)]
      exact funext hview
  · rw [Operation.run, cleanup]
    obtain ⟨-, ⟨hfailed, hview⟩ | ⟨hdone, hview⟩⟩ := view_removeEntry nested zone key
    · rw [if_neg (hfailed ∘ Answer.succeeds_done.mp), hview]
    · rw [if_pos (Answer.succeeds_done.mpr hdone), hview]

theorem view_of_failure (nested : w.files.Nested) (entry : o.onEntry = true)
    (failed : ¬(o.run w).1.Succeeds) : (o.run w).2.view = w.view := by
  rw [view_run nested entry, if_neg failed]

theorem text?_of_view (h : w'.view = w.view) : w'.text? = w.text? := by
  funext zone key
  rw [text?, text?, h]

/-- What an operation on an entry makes of the texts. -/
theorem text?_run (nested : w.files.Nested) (c : Cache) (entry : o.onEntry = true)
    (done : (o.run w).1.Succeeds) : (o.run w).2.text? = o.texts c w.text? := by
  rcases Operation.cases_of_onEntry entry with
    ⟨α, decode, zone, key, rfl⟩ | ⟨zone, key, value, rfl⟩ | ⟨zone, key, rfl⟩
  · rw [Operation.run, read_snd]
    exact text?_of_view (view_openZone_snd nested zone).2
  · funext other name
    exact text?_write nested (Answer.succeeds_done.mp done) other name
  · funext other name
    rw [Operation.run, cleanup] at done ⊢
    rw [text?_removeEntry nested (by rw [Answer.succeeds_done.mp done]; rfl)]
    simp [Operation.texts, clears, covers]

theorem isWritten_removeZone (w : Workspace) (zone : String) :
    isWritten (w.removeZone zone).1 = true := by
  unfold Workspace.removeZone
  dsimp only
  repeat' split
  all_goals rfl

theorem isWritten_removeAll (w : Workspace) : isWritten w.removeAll.1 = true := by
  unfold Workspace.removeAll
  dsimp only
  repeat' split
  all_goals rfl

theorem Backed.run (h : w.Backed fresh) (o : Operation) : (o.run w).2.Backed fresh := by
  cases o with
  | read decode zone key =>
      rw [Operation.run, read_snd]
      exact h.openZone zone
  | write zone key value => exact h.write zone key value
  | cleanup zone key =>
      rcases zone with - | zone
      · exact h.removeAll.1
      · rcases key with - | key
        · exact (h.removeZone zone).1
        · exact h.removeEntry zone key

/-- A whole zone, or everything, is removed even if that fails. -/
theorem Backed.text?_run (h : w.Backed fresh) (whole : o.onEntry = false) :
    (o.run w).2.text? = o.texts fresh w.text? := by
  have removed : ∀ zone key, isWritten (w.cleanup zone key).1 = true →
      (w.cleanup zone key).2.text? = Operation.texts fresh w.text? (.cleanup zone key) := by
    intro zone key written
    funext other name
    exact (h.cleanup written).2 other name
  rcases Operation.cases_of_not_onEntry whole with ⟨key, rfl⟩ | ⟨zone, rfl⟩
  · exact removed none key w.isWritten_removeAll
  · exact removed (some zone) none (w.isWritten_removeZone zone)

/-- What an event makes of the texts is decided by whether it succeeds. -/
theorem Backed.text?_step (h : w.Backed fresh) (hzones : fresh.zones = ∅) (event : Event) :
    (event.step fresh w).Backed fresh ∧
      (event.step fresh w).text? = event.texts fresh (event.succeeds w) w.text? := by
  cases event with
  | reopen =>
      obtain ⟨hbacked, htexts⟩ := h.reopen hzones
      refine ⟨hbacked, ?_⟩
      funext zone key
      rw [Event.step, htexts, Event.texts]
      split <;> rfl
  | operation o =>
      refine ⟨h.run o, ?_⟩
      rw [Event.step, Event.texts, Event.succeeds]
      cases hentry : o.onEntry with
      | false => simp [h.text?_run hentry]
      | true =>
          by_cases done : (o.run w).1.Succeeds
          · simp [Workspace.text?_run h.nested fresh hentry done, done]
          · simp [text?_of_view (view_of_failure h.nested hentry done), done]

end Workspace

/-! ## What is left of a history -/

/-- The end of a history after the last event that clears. -/
def since {ε : Type*} (clears : ε → Bool) (history : List ε) : List ε :=
  history.rtakeWhile fun event => !clears event

theorem since_append_singleton {ε : Type*} (clears : ε → Bool) (history : List ε) (event : ε) :
    since clears (history ++ [event]) =
      if clears event then [] else since clears history ++ [event] := by
  rw [since, List.rtakeWhile_concat, since]
  cases clears event <;> rfl

end Testbed.Cache
