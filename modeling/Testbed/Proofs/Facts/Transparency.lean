import Testbed.Proofs.Cache.Lookup
import Testbed.Proofs.Cache.Provenance
import Testbed.Proofs.Facts.Entry

/-!
# The cache of facts cannot be seen

A history asks questions that share one cache, cleans parts of it up and sets it up anew.  The
invariant is that every entry which is stored under the name of a look-up, in the zone of a name, is
the answer that some inventory files give to that question about that name, stored with these files.
So an entry that counts for a question is its answer, and every other question is computed.
-/

namespace Testbed.Facts

open Cache (Setup Workspace)
open Inventory (LoadError load)

/-! ## Histories -/

/-- What happens in a history. -/
inductive Event where
  | ask (q : Query) (r : Request)
  | reboot (files : List Path) (host test kind : String)
  | cleanup (zone key : Option String)
  | reopen

/-- What a question tells. -/
inductive Answer where
  | vars (result : Except (Cache.Lookup.Failure LoadError) (Option Json.Vars))
  | reboot (result : Except RebootFailure Json.Vars)

namespace Event

/-- What the inventory is asked for, if it is. -/
def request? : Event → Option Request
  | ask _ r => some r
  | reboot files host _ _ => some { files, name := host }
  | cleanup _ _ => none
  | reopen => none

/-- What an event tells, and what it makes of the workspace. -/
def run (fresh : Cache) (w : Workspace) : Event → Option Answer × Workspace
  | ask q r => (some (.vars (q.ask w r).1.result), (q.ask w r).2)
  | reboot files host test kind =>
    (some (.reboot (askReboot w files host test kind).1.1), (askReboot w files host test kind).2)
  | cleanup zone key => (none, (w.cleanup zone key).2)
  | reopen => (none, w.reopen fresh)

end Event

/-- What the questions of a history tell. -/
def answers (fresh : Cache) : Workspace → List Event → List Answer
  | _, [] => []
  | w, event :: rest => (event.run fresh w).1.toList ++ answers fresh (event.run fresh w).2 rest

/-! ## Without a cache -/

/-- The answer to a question without any cache. -/
def Query.uncached (q : Query) (t : FileTree) (r : Request) : Except LoadError (Option Json.Vars) :=
  (load t r.files).map fun inv => q.answer inv r.name

/-- The restart settings from the variables that are visible to a host. -/
def rebootOf (host test kind : String) :
    Except (Cache.Lookup.Failure LoadError) (Option Json.Vars) → Except RebootFailure Json.Vars
  | .error e => .error (.lookup e)
  | .ok none => .error (.hostNotFound host)
  | .ok (some vars) => .ok (rebootControl vars test kind)

/-- What an event tells without any cache. -/
def Event.uncached (t : FileTree) : Event → Option Answer
  | ask q r => some (.vars ((q.uncached t r).mapError .computation))
  | reboot files host test kind =>
    some (.reboot (rebootOf host test kind
      ((Query.uncached .hostVisibleVars t { files, name := host }).mapError .computation)))
  | cleanup _ _ => none
  | reopen => none

/-! ## What is asked of the files -/

/-- The files that a question about a name is computed from. -/
def filesFor (w : Workspace) (name : String) : FileTree :=
  if w.cache.enabled then (w.openZone name).2.files else w.files

/-- Whenever a question is asked, its inventory files are what they are in a tree. -/
def Steady (t : FileTree) (fresh : Cache) : Workspace → List Event → Prop
  | _, [] => True
  | w, event :: rest =>
    (∀ r ∈ event.request?, ∀ path ∈ r.files,
      (filesFor w r.name).readText path = t.readText path) ∧
    Steady t fresh (event.run fresh w).2 rest

instance decidableSteady (t : FileTree) (fresh : Cache) :
    ∀ w history, Decidable (Steady t fresh w history)
  | _, [] => .isTrue trivial
  | w, event :: rest =>
    have := decidableSteady t fresh (event.run fresh w).2 rest
    inferInstanceAs (Decidable (_ ∧ _))

/-- All numbers in the inventory files of a question are integers of 64 bits. -/
def Integers (t : FileTree) (r : Request) : Prop :=
  ∀ path ∈ r.files, ∀ file, Inventory.readFile t path = .ok file → file.Holds Json.Integral

instance (t : FileTree) : DecidablePred (Integers t) := fun r =>
  have (path : Path) :
      Decidable (∀ file, Inventory.readFile t path = .ok file → file.Holds Json.Integral) :=
    match Inventory.readFile t path with
    | .ok file =>
      decidable_of_iff (file.Holds Json.Integral) ⟨fun h => fun | _, rfl => h, fun h => h file rfl⟩
    | .error _ => .isTrue nofun
  inferInstanceAs (Decidable (∀ path ∈ r.files, _))

/-! ## The invariant -/

/-- An entry of a look-up is the answer that some files give to the question about its zone. -/
def Recorded (t : FileTree) (zone key text : String) : Prop :=
  ∀ q : Query, key = q.lookupName → ∃ files inv, load t files = .ok inv ∧ inv.Holds Storable ∧
    text = (Entry.encode ⟨files, q.answer inv zone⟩).compact

theorem lookupName_injective {q q' : Query} (h : q.lookupName = q'.lookupName) : q = q' := by
  cases q <;> cases q' <;> first | rfl | exact absurd h (by decide)

/-- An inventory whose files hold integers only can be stored. -/
theorem storable_of_load {t : FileTree} {r : Request} (integers : Integers t r) {inv : Inventory}
    (h : load t r.files = .ok inv) : inv.Holds Storable := by
  refine Inventory.holds_of_load ?_ h
  intro path hpath file hfile
  have hbounded : file.Holds (Json.Bounded 124) := by
    unfold Inventory.readFile at hfile
    split at hfile
    case h_1 => cases hfile
    case h_2 =>
        split at hfile
        case h_1 hparse =>
            cases hfile
            exact Inventory.File.bounded_of_parse? hparse
        case h_2 => cases hfile
  exact hbounded.and (integers path hpath file hfile)

theorem storable_answer {inv : Inventory} (h : inv.Holds Storable) (files : List Path) (q : Query)
    (name : String) : Entry.Storable ⟨files, q.answer inv name⟩ := by
  intro vars hvars
  exact h.answer storable_string storable_ofStrings hvars

theorem recorded_encode {t : FileTree} {r : Request} {inv : Inventory}
    (hload : load t r.files = .ok inv) (h : inv.Holds Storable) (q : Query) :
    Recorded t r.name q.lookupName (Entry.encode ⟨r.files, q.answer inv r.name⟩).compact := by
  intro q' hname
  rw [← lookupName_injective hname]
  exact ⟨r.files, inv, hload, h, rfl⟩

section Ask

variable {t : FileTree} {directory : Option Path} {w : Workspace} {q : Query} {r : Request}

/-- An entry that counts for a question is its answer. -/
theorem uncached_of_afterRead (h : w.Holds (Recorded t) directory) {value : Option Json.Vars}
    (hvalue : (q.lookup load).afterRead
      (w.read Entry.decode r.name q.lookupName).1 r = some value) :
    q.uncached t r = .ok value := by
  obtain ⟨entry, hentry, hcounts⟩ := Option.bind_eq_some_iff.mp hvalue
  obtain ⟨text, hrecorded, htext⟩ := h.read_fst hentry
  -- No other look-up has this name: the entry answers this question, though perhaps from other
  -- files.
  obtain ⟨files, inv, hload, hstorable, rfl⟩ := hrecorded q rfl
  rw [Entry.decodeText?_encode (storable_answer hstorable files q r.name)] at htext
  cases htext
  dsimp only at hcounts
  split at hcounts
  case isTrue hfiles =>
      cases hcounts
      rw [Query.uncached, ← hfiles, hload]
      rfl
  case isFalse => cases hcounts

/-- A question that finds its files as they are in the tree is answered as without a cache, and all
entries are answers again. -/
theorem ask_uncached (h : w.Holds (Recorded t) directory)
    (steady : ∀ path ∈ r.files, (filesFor w r.name).readText path = t.readText path)
    (integers : Integers t r) :
    (q.ask w r).1.result = (q.uncached t r).mapError .computation ∧
      (q.ask w r).2.Holds (Recorded t) directory := by
  have hcompute : (q.lookup load).compute (filesFor w r.name) r = q.uncached t r := by
    change (load (filesFor w r.name) r.files).map _ = _
    rw [Inventory.load_congr steady]
    rfl
  have hzone : (q.lookup load).zone r = .ok r.name := rfl
  unfold Query.ask
  cases henabled : w.cache.enabled with
  | false =>
      rw [Cache.Lookup.call_of_disabled hzone henabled]
      simp only [filesFor, henabled, Bool.false_eq_true, if_false] at hcompute
      rw [hcompute]
      exact ⟨rfl, h⟩
  | true =>
      simp only [filesFor, henabled, if_true] at hcompute
      have hopened := h.openZone_snd r.name
      rcases Cache.Lookup.call_cases hzone henabled with
        ⟨value, hvalue, hcall⟩ | ⟨e, he, hcall⟩ | ⟨value, hvalue, hcall⟩
      · rw [hcall, uncached_of_afterRead h hvalue]
        exact ⟨rfl, hopened⟩
      · rw [hcall, ← hcompute, he]
        exact ⟨rfl, hopened⟩
      · rw [hcall, ← hcompute, hvalue]
        refine ⟨rfl, hopened.write ?_⟩
        rw [hcompute] at hvalue
        cases hload : load t r.files with
        | error e => simp [Query.uncached, hload, Except.map] at hvalue
        | ok inv =>
            simp only [Query.uncached, hload, Except.map, Except.ok.injEq] at hvalue
            rw [← hvalue]
            exact recorded_encode hload (storable_of_load integers hload) q

theorem askReboot_eq (w : Workspace) (files : List Path) (host test kind : String) :
    askReboot w files host test kind =
      ((rebootOf host test kind (Query.ask .hostVisibleVars w { files, name := host }).1.result,
          (Query.ask .hostVisibleVars w { files, name := host }).1.computed),
        (Query.ask .hostVisibleVars w { files, name := host }).2) := by
  unfold askReboot
  split
  case h_1 hask => rw [hask]; rfl
  case h_2 hask => rw [hask]; rfl
  case h_3 hask => rw [hask]; rfl

end Ask

/-! ## The run -/

section Run

variable {t : FileTree} {directory : Option Path} {w : Workspace} {fresh : Cache}

/-- Every event tells what it would tell without a cache, and leaves answers only. -/
theorem run_uncached (h : w.Holds (Recorded t) directory) (hlocation : fresh.location = directory)
    (hzones : fresh.zones = ∅) (event : Event)
    (steady : ∀ r ∈ event.request?, ∀ path ∈ r.files,
      (filesFor w r.name).readText path = t.readText path)
    (integers : ∀ r ∈ event.request?, Integers t r) :
    (event.run fresh w).1 = event.uncached t ∧
      (event.run fresh w).2.Holds (Recorded t) directory := by
  cases event with
  | ask q r =>
      obtain ⟨hresult, hafter⟩ := ask_uncached (q := q) h (steady r rfl) (integers r rfl)
      refine ⟨?_, hafter⟩
      rw [Event.run, Event.uncached, hresult]
  | reboot files host test kind =>
      obtain ⟨hresult, hafter⟩ :=
        ask_uncached (q := .hostVisibleVars) h (steady _ rfl) (integers _ rfl)
      rw [Event.run, Event.uncached, askReboot_eq, hresult]
      exact ⟨rfl, hafter⟩
  | cleanup zone key => exact ⟨rfl, h.cleanup zone key⟩
  | reopen => exact ⟨rfl, h.reopen hlocation hzones⟩

theorem answers_uncached (h : w.Holds (Recorded t) directory)
    (hlocation : fresh.location = directory) (hzones : fresh.zones = ∅) {history : List Event}
    (steady : Steady t fresh w history)
    (integers : ∀ event ∈ history, ∀ r ∈ event.request?, Integers t r) :
    answers fresh w history = history.filterMap (Event.uncached t) := by
  induction history generalizing w with
  | nil => rfl
  | cons event rest ih =>
      obtain ⟨hresult, hafter⟩ := run_uncached h hlocation hzones event steady.1
        (integers event List.mem_cons_self)
      have hrest := ih hafter steady.2 fun e he => integers e (List.mem_cons_of_mem event he)
      rw [answers, hresult, hrest]
      cases hevent : event.uncached t with
      | none => rw [List.filterMap_cons_none hevent]; rfl
      | some answer => rw [List.filterMap_cons_some hevent]; rfl

/-- A cache without entries cannot be seen: however questions about any names and any files,
cleanups and new caches of the same setup follow one another, every question is answered as the
inventory of its own files answers it.  Only the inventory files must stay what they are, and may
hold integers only. -/
theorem answers_eq_uncached {s : Setup} {t : FileTree}
    (unused : s.persistent = true → Cache.Unused s.directory t) {history : List Event}
    (steady : Steady t (Cache.ofSetup s) ⟨Cache.ofSetup s, t⟩ history)
    (integers : ∀ event ∈ history, ∀ r ∈ event.request?, Integers t r) :
    answers (Cache.ofSetup s) ⟨Cache.ofSetup s, t⟩ history = history.filterMap (Event.uncached t) :=
  answers_uncached (Cache.Workspace.holds_ofSetup unused _) rfl rfl steady integers

/-- Two look-ups of one name, a cache set up anew, and files that cannot be loaded between them. -/
theorem answers_eq_uncached_one_name :
    let document := "\x7b\"_meta\":\x7b\"hostvars\":\x7b\"h\":\x7b\"n\":1\x7d\x7d\x7d\x7d"
    let t : FileTree := { nodes := [(["inv"], .file (Text.Utf8.encode document))] }
    let history : List Event :=
      [.ask .hostVars ⟨["inv"], "h"⟩, .ask .groupVisibleVars ⟨["inv"], "h"⟩, .reopen,
        .ask .hostVars ⟨["inv"], "h"⟩, .ask .groupVisibleVars ⟨["inv"], "h"⟩,
        .ask .hostVars ⟨["inv", "none"], "h"⟩, .cleanup (some "h") none,
        .ask .hostVars ⟨["inv"], "h"⟩]
    Cache.Unused "./_cache" t ∧ Steady t (Cache.ofSetup {}) ⟨Cache.ofSetup {}, t⟩ history ∧
      (∀ event ∈ history, ∀ r ∈ event.request?, Integers t r) ∧
      answers (Cache.ofSetup {}) ⟨Cache.ofSetup {}, t⟩ history =
        history.filterMap (Event.uncached t) := by
  intro document t history
  have unused : Cache.Unused "./_cache" t := Cache.unused_of_nodes (by decide)
  have steady : Steady t (Cache.ofSetup {}) ⟨Cache.ofSetup {}, t⟩ history := by decide +kernel
  have integers : ∀ event ∈ history, ∀ r ∈ event.request?, Integers t r := by decide +kernel
  exact ⟨unused, steady, integers, answers_eq_uncached (s := {}) (fun _ => unused) steady integers⟩

end Run

end Testbed.Facts
