import Testbed.Proofs.Cache.Clearing
import Testbed.Proofs.Json.RoundTrip

/-!
# When a look-up computes

A look-up stores its results as they are, and nobody else writes under its name.  In a history of
its calls, each at a time when its function gives some outcome, and of operations of others,
cleanups and new caches, it remembers for each zone the first result since the zone was cleared.
The invariant is that the entry of a zone is what is remembered for it; so a call computes if and
only if nothing is remembered.
-/

namespace Testbed.Cache

/-- How a look-up remembers its results: its name, the zone of a call, and the form of what is
stored. -/
structure Memo (A T : Type) where
  name : String
  zone : A → Except Error String
  encode : T → Json
  decode : Json.Decoder T

namespace Memo

variable {A T E : Type}

/-- The look-up at a time when its function gives an outcome. -/
def giving (m : Memo A T) (outcome : Except E T) : Lookup A T E T :=
  .plain m.name m.zone m.encode m.decode fun _ _ => outcome

/-- Every value is read back from the text that is stored of it. -/
def ReadsBack (m : Memo A T) : Prop :=
  ∀ value, Json.decodeText? m.decode (m.encode value).compact = some value

/-! ## Histories -/

/-- What happens in a history: calls, operations of others and cleanups, and new caches. -/
inductive Event (A T E : Type) : Type 1 where
  | call (args : A) (outcome : Except E T)
  | operation (o : Operation)
  | reopen

/-- Whether an event writes nothing under a name, calls apart. -/
def Event.spares (name : String) : Event A T E → Bool
  | operation (.write _ key _) => key != name
  | _ => true

/-- What an event makes of the workspace. -/
def run (m : Memo A T) (fresh : Cache) (w : Workspace) : Event A T E → Workspace
  | .call args outcome => ((m.giving outcome).call w args).2
  | .operation o => (o.run w).2
  | .reopen => w.reopen fresh

/-- The workspace after a history. -/
def after (m : Memo A T) (fresh : Cache) (w : Workspace) (history : List (Event A T E)) :
    Workspace :=
  history.foldl (m.run fresh) w

/-- Whether the result of a call is written, and the zone from which an entry is removed. -/
def writesEvent (m : Memo A T) (w : Workspace) : Event A T E → Bool
  | .call args outcome => (m.giving outcome).writes w args
  | .operation (.cleanup zone key) => isWritten (w.cleanup zone key).1
  | _ => true

/-- Whether everything in a history is written. -/
def writes (m : Memo A T) (fresh : Cache) : Workspace → List (Event A T E) → Bool
  | _, [] => true
  | w, event :: rest => m.writesEvent w event && m.writes fresh (m.run fresh w event) rest

/-! ## What is remembered -/

/-- What an event is for the cache alone; calls are not of this kind. -/
def Event.onCache? : Event A T E → Option Cache.Event
  | call _ _ => none
  | operation o => some (.operation o)
  | reopen => some .reopen

/-- Whether an event is a cleanup of what is stored for a zone. -/
def covers (m : Memo A T) (zone : String) (event : Event A T E) : Bool :=
  event.onCache?.any (Cache.Event.covers zone m.name)

/-- Whether an event clears what is stored for a zone; a new cache without a directory is empty. -/
def clears (m : Memo A T) (fresh : Cache) (zone : String) (event : Event A T E) : Bool :=
  event.onCache?.any (Cache.Event.clears fresh zone m.name)

@[simp] theorem clears_call (m : Memo A T) (fresh : Cache) (zone : String) (args : A)
    (outcome : Except E T) : m.clears fresh zone (.call args outcome) = false := rfl

/-- With a directory that is not given by the empty path, what clears are the cleanups. -/
theorem clears_of_directory {m : Memo A T} {fresh : Cache} {path : Path}
    (hpath : fresh.location = some path) (named : path ≠ "") :
    (m.clears fresh : String → Event A T E → Bool) = m.covers := by
  funext zone event
  rw [clears, covers, Cache.Event.clears_of_directory hpath named]

/-- The result that a call for a zone would store. -/
def result? (m : Memo A T) (zone : String) : Event A T E → Option T
  | .call args (.ok value) =>
    match m.zone args with
    | .ok own => if own = zone then some value else none
    | .error _ => none
  | _ => none

/-- The first result for a zone since it was cleared. -/
def remembered (m : Memo A T) (clears : String → Event A T E → Bool) (history : List (Event A T E))
    (zone : String) : Option T :=
  (since (clears zone) history).findSome? (m.result? zone)

theorem remembered_append_singleton (m : Memo A T) (clears : String → Event A T E → Bool)
    (history : List (Event A T E)) (event : Event A T E) (zone : String) :
    m.remembered clears (history ++ [event]) zone =
      if clears zone event then none
      else (m.remembered clears history zone).or (m.result? zone event) := by
  rw [remembered, since_append_singleton]
  split
  case isTrue => rfl
  case isFalse =>
      rw [List.findSome?_append, List.findSome?_singleton]
      rfl

/-- The entry of every zone is what is remembered for it. -/
structure Remembers (m : Memo A T) (fresh : Cache) (w : Workspace)
    (history : List (Event A T E)) : Prop where
  backed : w.Backed fresh
  text : ∀ zone, w.text? zone m.name =
    (m.remembered (m.clears fresh) history zone).map fun value => (m.encode value).compact

variable {m : Memo A T} {fresh : Cache} {w : Workspace} {history : List (Event A T E)} {args : A}
  {zone : String}

/-- A call gives what is remembered, and computes if nothing is. -/
theorem Remembers.answer (h : m.Remembers fresh w history) (readsBack : m.ReadsBack)
    (enabled : fresh.enabled = true) (hzone : m.zone args = .ok zone) (outcome : Except E T) :
    ((m.giving outcome).call w args).1 =
      match m.remembered (m.clears fresh) history zone with
      | some value => ⟨.ok value, false⟩
      | none => .ofComputation outcome := by
  have henabled := h.backed.enabled.trans enabled
  have hread : (w.read m.decode zone m.name).1 =
      m.remembered (m.clears fresh) history zone := by
    rw [Workspace.read_eq_text? h.backed.nested, h.text]
    rcases m.remembered (m.clears fresh) history zone with - | value
    · rfl
    · exact readsBack value
  rcases hremembered : m.remembered (m.clears fresh) history zone with - | value
  · rw [Lookup.call_of_not_taken (l := m.giving outcome) hzone henabled
      (hread.trans hremembered)]
    rfl
  · rw [Lookup.call_of_taken (l := m.giving outcome) hzone henabled (hread.trans hremembered)]

/-- A call stores the result of its function if nothing is remembered, and nothing else. -/
theorem Remembers.call (h : m.Remembers fresh w history) (readsBack : m.ReadsBack)
    (enabled : fresh.enabled = true) {outcome : Except E T}
    (written : (m.giving outcome).writes w args = true) :
    m.Remembers fresh ((m.giving outcome).call w args).2 (history ++ [.call args outcome]) := by
  rcases hzone : m.zone args with e | own
  · rw [Lookup.call_of_error hzone]
    refine ⟨h.backed, fun zone => ?_⟩
    rw [remembered_append_singleton, h.text]
    rcases outcome with e | value <;> simp [result?, hzone]
  · obtain ⟨backed, htext⟩ := Lookup.text?_call h.backed enabled hzone written
    refine ⟨backed, fun zone => ?_⟩
    have hother := htext zone m.name
    rw [h.answer readsBack enabled hzone, h.text] at hother
    rw [remembered_append_singleton, hother]
    by_cases hsame : zone = own
    · subst hsame
      rcases hremembered : m.remembered (m.clears fresh) history zone with - | value
      · rcases outcome with e | value
        · simp [result?, Lookup.stored?, Lookup.Answer.ofComputation, Except.mapError]
        · simp [result?, hzone, giving, Lookup.plain, Lookup.stored?,
            Lookup.Answer.ofComputation, Except.mapError]
      · simp [giving, Lookup.plain, Lookup.stored?]
    · rcases outcome with e | value <;> simp [result?, hzone, hsame, Ne.symm hsame]

/-- An operation of another changes nothing that is remembered, unless it clears it. -/
theorem Remembers.operation (h : m.Remembers fresh w history) {o : Operation}
    (spares : (Event.operation o : Event A T E).spares m.name = true)
    (written : m.writesEvent w (.operation o : Event A T E) = true) :
    m.Remembers fresh (o.run w).2 (history ++ [.operation o]) := by
  rcases o with ⟨decode, z, key⟩ | ⟨z, key, value⟩ | ⟨z, key⟩
  · rw [Operation.run, Workspace.read_snd]
    refine ⟨h.backed.openZone z, fun zone => ?_⟩
    rw [remembered_append_singleton, Workspace.text?_openZone h.backed.nested, h.text]
    simp [clears, Event.onCache?, Cache.Event.clears, result?]
  · refine ⟨h.backed.write z key value, fun zone => ?_⟩
    have hkey : key ≠ m.name := by simpa [Event.spares] using spares
    have hne : ¬(zone = z ∧ m.name = key) := fun hsame => hkey hsame.2.symm
    rw [remembered_append_singleton, Operation.run,
      Workspace.text?_write_of_ne h.backed.nested value hne, h.text]
    simp [clears, Event.onCache?, Cache.Event.clears, result?]
  · obtain ⟨backed, htext⟩ := h.backed.cleanup written
    refine ⟨backed, fun zone => ?_⟩
    rw [remembered_append_singleton, Operation.run, htext, h.text]
    simp only [clears, Event.onCache?, Option.any_some, Cache.Event.clears, result?,
      Option.or_none]
    split <;> rfl

theorem Remembers.reopen (h : m.Remembers fresh w history) (hzones : fresh.zones = ∅) :
    m.Remembers fresh (w.reopen fresh) (history ++ [.reopen]) := by
  obtain ⟨backed, htext⟩ := h.backed.reopen hzones
  refine ⟨backed, fun zone => ?_⟩
  rw [remembered_append_singleton, htext, h.text]
  simp only [clears, Event.onCache?, Option.any_some, Cache.Event.clears, result?, Option.or_none]
  split <;> rfl

/-- Every event keeps the invariant. -/
theorem Remembers.run (h : m.Remembers fresh w history) (readsBack : m.ReadsBack)
    (enabled : fresh.enabled = true) (hzones : fresh.zones = ∅) {event : Event A T E}
    (spares : event.spares m.name = true) (written : m.writesEvent w event = true) :
    m.Remembers fresh (m.run fresh w event) (history ++ [event]) := by
  cases event with
  | call args outcome => exact h.call readsBack enabled written
  | operation o => exact h.operation spares written
  | reopen => exact h.reopen hzones

theorem Remembers.after (h : m.Remembers fresh w history) (readsBack : m.ReadsBack)
    (enabled : fresh.enabled = true) (hzones : fresh.zones = ∅) {later : List (Event A T E)}
    (spares : ∀ event ∈ later, event.spares m.name = true)
    (written : m.writes fresh w later = true) :
    m.Remembers fresh (m.after fresh w later) (history ++ later) := by
  induction later generalizing w history with
  | nil => rwa [List.append_nil]
  | cons event rest ih =>
      rw [writes, Bool.and_eq_true] at written
      have hrun := h.run readsBack enabled hzones (spares event List.mem_cons_self) written.1
      have hrest := ih hrun (fun e he => spares e (List.mem_cons_of_mem event he)) written.2
      rwa [List.append_assoc] at hrest

theorem remembers_ofSetup {s : Setup} {t : FileTree} (nested : t.Nested)
    (unused : s.persistent = true → Unused s.directory t) :
    m.Remembers (ofSetup s) ⟨ofSetup s, t⟩ ([] : List (Event A T E)) := by
  have backed := Workspace.backed_ofSetup nested unused
  exact ⟨backed, fun zone => Workspace.text?_ofSetup unused zone m.name⟩

/-- A look-up that stores its results as they are shares a cache that is empty at first.  After any
history in which all that it computes is written, and in which nobody else writes under its name, a
call whose zone is known gives the first result since the zone was cleared, and computes if and only
if there is none.  Where the zone is not known the call says so, and does nothing. -/
theorem computes_unless_remembered (readsBack : m.ReadsBack) {s : Setup}
    (enabled : s.enabled = true) {t : FileTree} (nested : t.Nested)
    (unused : s.persistent = true → Unused s.directory t)
    (spares : ∀ event ∈ history, event.spares m.name = true)
    (written : m.writes (ofSetup s) ⟨ofSetup s, t⟩ history = true) (args : A)
    (outcome : Except E T) :
    let w := m.after (ofSetup s) ⟨ofSetup s, t⟩ history
    (∀ zone, m.zone args = .ok zone →
      ((m.giving outcome).call w args).1 =
        match m.remembered (m.clears (ofSetup s)) history zone with
        | some value => ⟨.ok value, false⟩
        | none => .ofComputation outcome) ∧
    ∀ e, m.zone args = .error e →
      (m.giving outcome).call w args = (⟨.error (.cache e), false⟩, w) := by
  intro w
  have start : m.Remembers (ofSetup s) ⟨ofSetup s, t⟩ ([] : List (Event A T E)) :=
    remembers_ofSetup nested unused
  have remembers := start.after readsBack enabled rfl spares written
  constructor
  · intro zone hzone
    exact remembers.answer readsBack enabled hzone outcome
  · intro e hzone
    exact Lookup.call_of_error hzone

/-- Notes about hosts, which may be missing. -/
def notes : Memo String (Option String) where
  name := "notes"
  zone := .ok
  encode
    | some note => .string note
    | none => .null
  decode := Json.Decoder.nullable Json.Decoder.string

theorem readsBack_notes : notes.ReadsBack := by
  intro value
  rcases value with - | note
  · exact Json.decodeText?_compact .null (Nat.zero_le _)
  · exact Json.decodeText?_compact (.string note) (Nat.zero_le _)

/-- A failure is not remembered, but that there is no note is, also by a new cache. -/
theorem computes_unless_remembered_missing :
    let history : List (Event String (Option String) String) :=
      [.call "h" (.error "down"), .call "h" (.ok none), .operation (.cleanup (some "g") none),
        .reopen]
    let w := notes.after (ofSetup {}) ⟨ofSetup {}, .empty⟩ history
    let l : Lookup String (Option String) String (Option String) := notes.giving (.ok (some "note"))
    (∀ event ∈ history, event.spares "notes" = true) ∧
      notes.writes (ofSetup {}) ⟨ofSetup {}, .empty⟩ history = true ∧
      (l.call w "h").1 = ⟨.ok none, false⟩ ∧
      (l.call w "g").1 = .ofComputation (.ok (some "note")) := by
  intro history w l
  have spares : ∀ event ∈ history, event.spares "notes" = true := by decide
  have written : notes.writes (ofSetup {}) ⟨ofSetup {}, .empty⟩ history = true := by decide +kernel
  have answers := (computes_unless_remembered readsBack_notes (s := {}) rfl
    (FileTree.nested_of_nodes (by decide)) (fun _ => unused_of_nodes (by decide)) spares written ·
    (.ok (some "note")))
  refine ⟨spares, written, ?_, ?_⟩
  · rw [(answers "h").1 "h" rfl]
    rfl
  · rw [(answers "g").1 "g" rfl]
    rfl

/-- In a directory that is given by the empty path, a result outlives the removal of everything. -/
theorem not_computes_in_unnamed_directory :
    let fresh := ofSetup { directory := "" }
    let history : List (Event String (Option String) String) :=
      [.call "h" (.ok (some "old")), .operation (.cleanup none none)]
    let w := notes.after fresh ⟨fresh, .empty⟩ history
    Unused "" .empty ∧ (∀ event ∈ history, event.spares "notes" = true) ∧
      notes.writes fresh ⟨fresh, .empty⟩ history = true ∧
      notes.remembered notes.covers history "h" = none ∧
      ((notes.giving (.ok (some "new") : Except String _)).call w "h").1.computed = false := by
  intro fresh history w
  exact ⟨unused_of_nodes (by decide), by decide +kernel⟩

end Memo

end Testbed.Cache
