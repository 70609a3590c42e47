import Testbed.Proofs.Cache.Clearing
import Testbed.Proofs.Facts.Transparency

/-!
# When an inventory is loaded

For each kind of question and each name the cache remembers the files of the last question that was
answered since its entry was cleared.  The invariant is that the entry is the answer from these
files; so a question loads its files once if it is about other files, or about the same in another
order, and not at all if it is about these.  A question whose files cannot be loaded leaves what is
remembered.
-/

namespace Testbed.Facts

open Cache (Setup Workspace since)
open Inventory (load)

/-! ## Histories -/

namespace Event

/-- The question that an event asks, if it asks one. -/
def question? : Event → Option (Query × Request)
  | ask q r => some (q, r)
  | reboot files host _ _ => some (.hostVisibleVars, { files, name := host })
  | cleanup _ _ => none
  | reopen => none

/-- How often an event loads an inventory. -/
def loads (w : Workspace) : Event → Nat
  | ask q r => if (q.ask w r).1.computed then 1 else 0
  | reboot files host test kind => if (askReboot w files host test kind).1.2 then 1 else 0
  | cleanup _ _ => 0
  | reopen => 0

/-- Whether the answer is written, if one is computed, and the zone from which an entry is
removed. -/
def writes (w : Workspace) (event : Event) : Bool :=
  match event with
  | cleanup zone key => Cache.isWritten (w.cleanup zone key).1
  | _ => event.question?.all fun (q, r) => (q.lookup load).writes w r

/-- What an event is for the cache alone; questions are not of this kind. -/
def onCache? : Event → Option Cache.Event
  | ask _ _ => none
  | reboot _ _ _ _ => none
  | cleanup zone key => some (.operation (.cleanup zone key))
  | reopen => some .reopen

/-- Whether an event is a cleanup of the entry of a question. -/
def covers (q : Query) (name : String) (event : Event) : Bool :=
  event.onCache?.any (Cache.Event.covers name q.lookupName)

/-- Whether an event clears the entry of a question; a new cache without a directory is empty. -/
def clears (fresh : Cache) (q : Query) (name : String) (event : Event) : Bool :=
  event.onCache?.any (Cache.Event.clears fresh name q.lookupName)

/-- With a directory that is not given by the empty path, what clears are the cleanups. -/
theorem clears_of_directory {fresh : Cache} {path : Path} (hpath : fresh.location = some path)
    (named : path ≠ "") : clears fresh = covers := by
  funext q name event
  rw [clears, covers, Cache.Event.clears_of_directory hpath named]

/-- The files from which an event answers a question about a name, if they can be loaded. -/
def answeredFrom? (t : FileTree) (q : Query) (name : String) (event : Event) :
    Option (List Path) :=
  match event.question? with
  | some (q', r) => if q' = q ∧ r.name = name ∧ (load t r.files).isOk then some r.files else none
  | none => none

theorem request?_eq (event : Event) : event.request? = event.question?.map (·.2) := by
  cases event <;> rfl

section Question

variable {event : Event} {q : Query} {r : Request}

theorem loads_of_question (h : event.question? = some (q, r)) (w : Workspace) :
    event.loads w = if (q.ask w r).1.computed then 1 else 0 := by
  rcases event with ⟨q', r'⟩ | ⟨files, host, test, kind⟩ | ⟨zone, key⟩ | -
  · cases h
    rfl
  · cases h
    rw [loads, askReboot_eq]
  · cases h
  · cases h

theorem run_of_question (h : event.question? = some (q, r)) (fresh : Cache) (w : Workspace) :
    (event.run fresh w).2 = (q.ask w r).2 := by
  rcases event with ⟨q', r'⟩ | ⟨files, host, test, kind⟩ | ⟨zone, key⟩ | -
  · cases h
    rfl
  · cases h
    rw [run, askReboot_eq]
  · cases h
  · cases h

theorem writes_of_question (h : event.question? = some (q, r)) (w : Workspace) :
    event.writes w = (q.lookup load).writes w r := by
  rcases event with ⟨q', r'⟩ | ⟨files, host, test, kind⟩ | ⟨zone, key⟩ | -
  · cases h
    rw [writes, question?, Option.all_some]
    nofun
  · cases h
    rw [writes, question?, Option.all_some]
    nofun
  · cases h
  · cases h

end Question

end Event

/-- The workspace after a history. -/
def after (fresh : Cache) (w : Workspace) (history : List Event) : Workspace :=
  history.foldl (fun w event => (event.run fresh w).2) w

/-- Whether everything in a history is written. -/
def writes (fresh : Cache) : Workspace → List Event → Bool
  | _, [] => true
  | w, event :: rest => event.writes w && writes fresh (event.run fresh w).2 rest

/-- The files of the last question that was answered since its entry was cleared. -/
def remembered (t : FileTree) (clears : Query → String → Event → Bool) (history : List Event)
    (q : Query) (name : String) : Option (List Path) :=
  (since (clears q name) history).reverse.findSome? (Event.answeredFrom? t q name)

theorem remembered_append_singleton (t : FileTree) (clears : Query → String → Event → Bool)
    (history : List Event) (event : Event) (q : Query) (name : String) :
    remembered t clears (history ++ [event]) q name =
      if clears q name event then none
      else (event.answeredFrom? t q name).or (remembered t clears history q name) := by
  rw [remembered, Cache.since_append_singleton]
  split
  case isTrue => rfl
  case isFalse =>
      rw [List.reverse_append, List.findSome?_append, List.reverse_singleton,
        List.findSome?_singleton]
      rfl

/-! ## The invariant -/

/-- The answer from some files. -/
def entryFrom? (t : FileTree) (q : Query) (name : String) (files : List Path) : Option Entry :=
  (load t files).toOption.map fun inv => ⟨files, q.answer inv name⟩

/-- The entry of every question is the answer from the remembered files, which can be stored. -/
structure Remembers (t : FileTree) (fresh : Cache) (w : Workspace) (history : List Event) :
    Prop where
  backed : w.Backed fresh
  text : ∀ q name, w.text? name q.lookupName =
    ((remembered t (Event.clears fresh) history q name).bind (entryFrom? t q name)).map
      fun entry => entry.encode.compact
  storable : ∀ q name files, remembered t (Event.clears fresh) history q name = some files →
    ∃ inv, load t files = .ok inv ∧ inv.Holds Storable

section Ask

variable {t : FileTree} {fresh : Cache} {w : Workspace} {history : List Event} {q : Query}
  {r : Request}

/-- What is read of a question is the answer from the remembered files. -/
theorem Remembers.read (h : Remembers t fresh w history) (q : Query) (name : String) :
    (w.read Entry.decode name q.lookupName).1 =
      (remembered t (Event.clears fresh) history q name).bind (entryFrom? t q name) := by
  rw [Workspace.read_eq_text? h.backed.nested, h.text]
  rcases hremembered : remembered t (Event.clears fresh) history q name with - | files
  · rfl
  · obtain ⟨inv, hload, hstorable⟩ := h.storable q name files hremembered
    have hentry : entryFrom? t q name files = some ⟨files, q.answer inv name⟩ := by
      rw [entryFrom?, hload]
      rfl
    rw [Option.bind_some, hentry, Option.map_some, Option.bind_some]
    exact Entry.decodeText?_encode (storable_answer hstorable files q name)

/-- An entry counts for a question if it was computed from the same files in the same order. -/
theorem Remembers.afterRead (h : Remembers t fresh w history) (q : Query) (r : Request) :
    (q.lookup load).afterRead (w.read Entry.decode r.name q.lookupName).1 r =
      if remembered t (Event.clears fresh) history q r.name = some r.files
      then (q.uncached t r).toOption else none := by
  rw [h.read]
  rcases hremembered : remembered t (Event.clears fresh) history q r.name with - | files
  · rfl
  · obtain ⟨inv, hload, -⟩ := h.storable q r.name files hremembered
    rw [Option.bind_some, entryFrom?, hload]
    by_cases hsame : files = r.files
    · subst hsame
      simp [Query.lookup, Query.uncached, hload, Except.toOption, Except.map]
    · simp [Query.lookup, hsame, Except.toOption]

/-- A question is answered from its files, which are loaded unless they are remembered. -/
theorem Remembers.answer (h : Remembers t fresh w history) (enabled : fresh.enabled = true)
    (steady : ∀ path ∈ r.files, (filesFor w r.name).readText path = t.readText path) (q : Query) :
    (q.ask w r).1 = ⟨(q.uncached t r).mapError .computation,
      remembered t (Event.clears fresh) history q r.name != some r.files⟩ := by
  have henabled := h.backed.enabled.trans enabled
  have hzone : (q.lookup load).zone r = .ok r.name := rfl
  have hcompute : (q.lookup load).compute (w.openZone r.name).2.files r = q.uncached t r := by
    simp only [filesFor, henabled, if_true] at steady
    change (load _ r.files).map _ = _
    rw [Inventory.load_congr steady]
    rfl
  have htaken := h.afterRead q r
  by_cases hsame : remembered t (Event.clears fresh) history q r.name = some r.files
  · obtain ⟨inv, hload, -⟩ := h.storable q r.name r.files hsame
    have huncached : q.uncached t r = .ok (q.answer inv r.name) := by
      rw [Query.uncached, hload]
      rfl
    rw [if_pos hsame, huncached] at htaken
    rw [Query.ask, Cache.Lookup.call_of_taken hzone henabled htaken, huncached, hsame]
    simp [Except.mapError]
  · rw [if_neg hsame] at htaken
    rw [Query.ask, Cache.Lookup.call_of_not_taken hzone henabled htaken, hcompute]
    simp [Cache.Lookup.Answer.ofComputation, hsame]

/-- What an event that asks a question makes remembered. -/
theorem remembered_of_question {event : Event} (hquestion : event.question? = some (q, r))
    (q' : Query) (name : String) :
    remembered t (Event.clears fresh) (history ++ [event]) q' name =
      if q' = q ∧ name = r.name ∧ (load t r.files).isOk then some r.files
      else remembered t (Event.clears fresh) history q' name := by
  have hclears : event.clears fresh q' name = false := by
    rcases event with ⟨q₀, r₀⟩ | ⟨files, host, test, kind⟩ | ⟨zone, key⟩ | - <;>
      first | rfl | cases hquestion
  rw [remembered_append_singleton, hclears, Event.answeredFrom?, hquestion]
  by_cases hanswered : q' = q ∧ name = r.name ∧ (load t r.files).isOk
  · have hanswered' : q = q' ∧ r.name = name ∧ (load t r.files).isOk :=
      ⟨hanswered.1.symm, hanswered.2.1.symm, hanswered.2.2⟩
    simp [if_pos hanswered, if_pos hanswered']
  · have hanswered' : ¬(q = q' ∧ r.name = name ∧ (load t r.files).isOk) :=
      fun h => hanswered ⟨h.1.symm, h.2.1.symm, h.2.2⟩
    simp [if_neg hanswered, if_neg hanswered']

/-- A question that is answered makes its files remembered, and nothing else. -/
theorem Remembers.ask (h : Remembers t fresh w history) (enabled : fresh.enabled = true)
    {event : Event} (hquestion : event.question? = some (q, r))
    (steady : ∀ path ∈ r.files, (filesFor w r.name).readText path = t.readText path)
    (integers : Integers t r) (written : event.writes w = true) :
    Remembers t fresh (event.run fresh w).2 (history ++ [event]) := by
  rw [Event.writes_of_question hquestion] at written
  rw [Event.run_of_question hquestion]
  obtain ⟨backed, htext⟩ := Cache.Lookup.text?_call h.backed enabled
    (show (q.lookup load).zone r = .ok r.name from rfl) written
  refine ⟨backed, ?_, ?_⟩
  · intro q' name
    have hanswer := h.answer enabled steady q
    rw [remembered_of_question hquestion, Query.ask, htext, ← Query.ask, hanswer, h.text]
    by_cases hown : q' = q ∧ name = r.name
    · obtain ⟨rfl, rfl⟩ := hown
      rw [if_pos ⟨rfl, rfl⟩]
      rcases hload : load t r.files with e | inv
      · simp [Query.uncached, hload, Except.map, Except.mapError, Cache.Lookup.stored?, Except.isOk,
          Except.toBool]
      · by_cases hsame : remembered t (Event.clears fresh) history q' r.name = some r.files
        · simp [hsame, Query.uncached, hload, Except.map, Except.mapError, Cache.Lookup.stored?]
        · have hcomputed :
              (remembered t (Event.clears fresh) history q' r.name != some r.files) = true := by
            simpa using hsame
          simp [hcomputed, Query.uncached, hload, Except.map, Except.mapError,
            Cache.Lookup.stored?, Except.isOk, Except.toBool, entryFrom?, Except.toOption,
            Query.lookup]
    · have hkey : ¬(name = r.name ∧ q'.lookupName = (q.lookup load).name) :=
        fun hsame => hown ⟨lookupName_injective hsame.2, hsame.1⟩
      have hanswered : ¬(q' = q ∧ name = r.name ∧ (load t r.files).isOk = true) :=
        fun hsame => hown ⟨hsame.1, hsame.2.1⟩
      rw [if_neg hkey, if_neg hanswered]
  · intro q' name files hremembered
    rw [remembered_of_question hquestion] at hremembered
    split at hremembered
    case isTrue hanswered =>
        cases hremembered
        rcases hload : load t r.files with e | inv
        · simp [hload, Except.isOk, Except.toBool] at hanswered
        · exact ⟨inv, rfl, storable_of_load integers hload⟩
    case isFalse => exact h.storable q' name files hremembered

end Ask

section Run

variable {t : FileTree} {fresh : Cache} {w : Workspace} {history : List Event}

/-- An event that asks no question changes what is remembered only if it clears it. -/
theorem Remembers.of_clears {w' : Workspace} (h : Remembers t fresh w history) {event : Event}
    (hquestion : event.question? = none) (backed : w'.Backed fresh)
    (htext : ∀ q name, w'.text? name q.lookupName =
      if event.clears fresh q name then none else w.text? name q.lookupName) :
    Remembers t fresh w' (history ++ [event]) := by
  have hremembered : ∀ q name, remembered t (Event.clears fresh) (history ++ [event]) q name =
      if event.clears fresh q name then none
      else remembered t (Event.clears fresh) history q name := by
    intro q name
    rw [remembered_append_singleton, Event.answeredFrom?, hquestion]
    rfl
  refine ⟨backed, ?_, ?_⟩
  · intro q name
    rw [htext, hremembered, h.text]
    split <;> rfl
  · intro q name files hfiles
    rw [hremembered] at hfiles
    split at hfiles
    case isTrue => cases hfiles
    case isFalse => exact h.storable q name files hfiles

/-- Every event keeps the invariant. -/
theorem Remembers.run (h : Remembers t fresh w history) (enabled : fresh.enabled = true)
    (hzones : fresh.zones = ∅) {event : Event}
    (steady : ∀ r ∈ event.request?, ∀ path ∈ r.files,
      (filesFor w r.name).readText path = t.readText path)
    (integers : ∀ r ∈ event.request?, Integers t r) (written : event.writes w = true) :
    Remembers t fresh (event.run fresh w).2 (history ++ [event]) := by
  rcases hquestion : event.question? with - | ⟨q, r⟩
  · rcases event with ⟨q, r⟩ | ⟨files, host, test, kind⟩ | ⟨zone, key⟩ | -
    · cases hquestion
    · cases hquestion
    · obtain ⟨backed, htext⟩ := h.backed.cleanup written
      exact h.of_clears rfl backed fun q name => htext name q.lookupName
    · obtain ⟨backed, htext⟩ := h.backed.reopen hzones
      exact h.of_clears rfl backed fun q name => htext name q.lookupName
  · have hrequest : r ∈ event.request? := by
      rw [Event.request?_eq, hquestion]
      rfl
    exact h.ask enabled hquestion (steady r hrequest) (integers r hrequest) written

theorem Remembers.after (h : Remembers t fresh w history) (enabled : fresh.enabled = true)
    (hzones : fresh.zones = ∅) {later : List Event} (steady : Steady t fresh w later)
    (integers : ∀ event ∈ later, ∀ r ∈ event.request?, Integers t r)
    (written : writes fresh w later = true) :
    Remembers t fresh (after fresh w later) (history ++ later) := by
  induction later generalizing w history with
  | nil => rwa [List.append_nil]
  | cons event rest ih =>
      rw [writes, Bool.and_eq_true] at written
      have hrun := h.run enabled hzones steady.1 (integers event List.mem_cons_self) written.1
      have hrest := ih hrun steady.2 (fun e he => integers e (List.mem_cons_of_mem event he))
        written.2
      rwa [List.append_assoc] at hrest

theorem remembers_ofSetup {s : Setup} (nested : t.Nested)
    (unused : s.persistent = true → Cache.Unused s.directory t) :
    Remembers t (Cache.ofSetup s) ⟨Cache.ofSetup s, t⟩ [] := by
  refine ⟨Workspace.backed_ofSetup nested unused, ?_, ?_⟩
  · intro q name
    exact Workspace.text?_ofSetup unused name q.lookupName
  · intro q name files hremembered
    cases hremembered

theorem steady_append {later : List Event} :
    Steady t fresh w (history ++ later) ↔
      Steady t fresh w history ∧ Steady t fresh (after fresh w history) later := by
  induction history generalizing w with
  | nil => simp [Steady, after]
  | cons event rest ih =>
      rw [List.cons_append, Steady, Steady, ih, and_assoc]
      rfl

/-- A question loads its inventory once, unless the last question of its kind about its name that
was answered since its entry was cleared was about the same files in the same order: then it loads
nothing.  This holds after any history in which all answers that are computed are written; the
inventory files must stay what they are, and may hold integers only. -/
theorem loads_unless_remembered {s : Setup} (enabled : s.enabled = true) (nested : t.Nested)
    (unused : s.persistent = true → Cache.Unused s.directory t) {event : Event}
    (steady : Steady t (Cache.ofSetup s) ⟨Cache.ofSetup s, t⟩ (history ++ [event]))
    (integers : ∀ event ∈ history, ∀ r ∈ event.request?, Integers t r)
    (written : writes (Cache.ofSetup s) ⟨Cache.ofSetup s, t⟩ history = true)
    {q : Query} {r : Request} (hquestion : event.question? = some (q, r)) :
    event.loads (after (Cache.ofSetup s) ⟨Cache.ofSetup s, t⟩ history) =
      if remembered t (Event.clears (Cache.ofSetup s)) history q r.name = some r.files then 0
      else 1 := by
  obtain ⟨hsteady, hlast⟩ := steady_append.mp steady
  have remembers :=
    (remembers_ofSetup nested unused).after enabled rfl hsteady integers written
  have hrequest : r ∈ event.request? := by
    rw [Event.request?_eq, hquestion]
    rfl
  rw [Event.loads_of_question hquestion, remembers.answer enabled (hlast.1 r hrequest) q]
  by_cases hsame : remembered t (Event.clears (Cache.ofSetup s)) history q r.name = some r.files
  · simp [hsame]
  · simp [hsame]

/-- Other files are loaded again, an answer may be that there is nothing, and a question that cannot
be answered changes nothing. -/
theorem loads_unless_remembered_alternating :
    let t : FileTree := { nodes := [(["inv"], .file (Text.Utf8.encode "\x7b\x7d"))] }
    let history : List Event :=
      [.ask .hostVars ⟨["inv", "inv"], "h"⟩, .ask .hostVars ⟨["inv"], "h"⟩,
        .ask .hostVars ⟨["inv", "none"], "h"⟩, .reboot ["inv", "inv"] "h" "test" "kind", .reopen,
        .cleanup (some "h") (some "group_visible_vars")]
    let event : Event := .ask .hostVars ⟨["inv"], "h"⟩
    Cache.Unused "./_cache" t ∧
      Steady t (Cache.ofSetup {}) ⟨Cache.ofSetup {}, t⟩ (history ++ [event]) ∧
      (∀ event ∈ history, ∀ r ∈ event.request?, Integers t r) ∧
      writes (Cache.ofSetup {}) ⟨Cache.ofSetup {}, t⟩ history = true ∧
      event.loads (after (Cache.ofSetup {}) ⟨Cache.ofSetup {}, t⟩ history) = 0 := by
  intro t history event
  have unused : Cache.Unused "./_cache" t := Cache.unused_of_nodes (by decide)
  have steady : Steady t (Cache.ofSetup {}) ⟨Cache.ofSetup {}, t⟩ (history ++ [event]) := by
    decide +kernel
  have integers : ∀ event ∈ history, ∀ r ∈ event.request?, Integers t r := by decide +kernel
  have written : writes (Cache.ofSetup {}) ⟨Cache.ofSetup {}, t⟩ history = true := by
    decide +kernel
  refine ⟨unused, steady, integers, written, ?_⟩
  rw [loads_unless_remembered (s := {}) rfl (FileTree.nested_of_nodes (by decide))
    (fun _ => unused) steady integers written (q := .hostVars) (r := ⟨["inv"], "h"⟩) rfl]
  decide +kernel

/-- In a directory that is given by the empty path, an answer outlives the removal of everything. -/
theorem not_loads_in_unnamed_directory :
    let t : FileTree := { nodes := [(["/", "inv"], .file (Text.Utf8.encode "\x7b\x7d"))] }
    let fresh := Cache.ofSetup { directory := "" }
    let event : Event := .ask .hostVars ⟨["/inv"], "h"⟩
    let history : List Event := [event, .cleanup none none]
    Cache.Unused "" t ∧ Steady t fresh ⟨fresh, t⟩ (history ++ [event]) ∧
      (∀ event ∈ history, ∀ r ∈ event.request?, Integers t r) ∧
      writes fresh ⟨fresh, t⟩ history = true ∧
      remembered t Event.covers history .hostVars "h" = none ∧
      event.loads (after fresh ⟨fresh, t⟩ history) = 0 := by
  intro t fresh event history
  refine ⟨Cache.unused_of_nodes (by decide), ?_, ?_, ?_, ?_, ?_⟩
  · decide +kernel
  · decide +kernel
  · decide +kernel
  · decide +kernel
  · decide +kernel

end Run

end Testbed.Facts
