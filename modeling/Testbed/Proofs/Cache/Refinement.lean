import Testbed.Proofs.Cache.Clearing

/-!
# Histories of a persistent cache

A persistent cache over a directory that is missing at first answers every history in which no
operation fails as a cache without files answers its operations alone.  The path of the directory
may be any that means something missing; one that means the working directory, as the empty path
does, or a directory around it is not of this kind.

The invariant is that the cache can be let go of and shows the texts that the history should have
led to.  Its lists are never read, so it does not matter that they may differ.
-/

namespace Testbed.Cache

/-- The text of an entry. -/
def Zones.text? (zones : Zones) (zone key : String) : Option String :=
  (zones zone).entries.get? key

theorem Zones.text?_set (zones : Zones) (zone : String) (z : Zone) (other name : String) :
    (zones.set zone z).text? other name =
      if other = zone then z.entries.get? name else zones.text? other name := by
  rw [text?, set]
  split <;> rfl

theorem Zones.text?_write (zones : Zones) (zone key : String) (value : Json)
    (other name : String) :
    Zones.text? (Operation.effect zones (.write zone key value)) other name =
      if other = zone ∧ name = key then some value.compact else zones.text? other name := by
  have written : ((zones zone).write key value).entries.get? name =
      if name = key then some value.compact else (zones zone).entries.get? name :=
    Table.get?_insert _ key value.compact name
  rw [Operation.effect, Zones.text?_set, written]
  by_cases hzone : other = zone
  · subst hzone
    simp [Zones.text?]
  · simp [hzone]

/-- An entry that is removed has no text any more, whether there was one or not. -/
theorem Zones.text?_erase (zones : Zones) (zone key other name : String) :
    Zones.text? (Operation.effect zones (.cleanup (some zone) (some key))) other name =
      if other = zone ∧ name = key then none else zones.text? other name := by
  rw [Operation.effect]
  by_cases hhas : (zones zone).has key = true
  · have erased : ((zones zone).erase key).entries.get? name =
        if name = key then none else (zones zone).entries.get? name :=
      Table.get?_erase _ key name
    rw [if_pos hhas, Zones.text?_set, erased]
    by_cases hzone : other = zone
    · subst hzone
      simp [Zones.text?]
    · simp [hzone]
  · rw [if_neg hhas]
    split
    case isTrue hsame =>
        obtain ⟨rfl, rfl⟩ := hsame
        exact Zone.get?_of_not_has hhas
    case isFalse => rfl

/-- An operation should make of the texts what it makes of those that a cache shows, unless the
directory is given by the empty path. -/
theorem Operation.text?_effect {c : Cache} (named : c.location ≠ some "") (zones : Zones)
    (o : Operation) : Zones.text? (o.effect zones) = o.texts c zones.text? := by
  funext other name
  cases o with
  | read decode zone key => rfl
  | write zone key value => exact zones.text?_write zone key value other name
  | cleanup zone key =>
      simp only [texts, clears_of_named named]
      rcases zone with - | zone
      · rfl
      rcases key with - | key
      · rw [effect, Zones.text?_set, covers]
        simp only [beq_iff_eq]
        rfl
      · rw [Zones.text?_erase, covers]
        simp only [Bool.and_eq_true, beq_iff_eq]

namespace Workspace

/-- The cache can be let go of, and shows the texts of these zones. -/
structure Matches (fresh : Cache) (w : Workspace) (zones : Zones) : Prop where
  backed : w.Backed fresh
  text : w.text? = zones.text?

variable {fresh : Cache} {w : Workspace} {zones : Zones}

/-- A read gives what the zone says, whether it can be opened or not. -/
theorem Matches.read_fst (h : w.Matches fresh zones) {α : Type} (decode : Json.Decoder α)
    (zone key : String) : (w.read decode zone key).1 = (zones zone).read decode key := by
  rw [read_eq_text? h.backed.nested, h.text]
  rfl

/-- An operation that does not fail answers as the zones say. -/
theorem Matches.result (h : w.Matches fresh zones) {o : Operation}
    (succeeds : (o.run w).1.Succeeds) : (o.run w).1 = o.result zones := by
  cases o with
  | read decode zone key => exact congrArg Answer.found (h.read_fst decode zone key)
  | write zone key value => exact congrArg Answer.done (Answer.succeeds_done.mp succeeds)
  | cleanup zone key => exact congrArg Answer.done (Answer.succeeds_done.mp succeeds)

/-- An operation that does not fail does what the zones say. -/
theorem Matches.run (h : w.Matches fresh zones) (named : fresh.location ≠ some "")
    (hzones : fresh.zones = ∅) {o : Operation} (succeeds : (o.run w).1.Succeeds) :
    (o.run w).2.Matches fresh (o.effect zones) := by
  obtain ⟨hbacked, htext⟩ := h.backed.text?_step hzones (.operation o)
  have hsucceeds : (Event.operation o).succeeds w = true := decide_eq_true succeeds
  refine ⟨hbacked, ?_⟩
  rw [hsucceeds, h.text] at htext
  rw [Operation.text?_effect named]
  exact htext

/-- Letting go of the cache changes no text. -/
theorem Matches.reopen (h : w.Matches fresh zones) (persistent : fresh.location.isNone = false)
    (hzones : fresh.zones = ∅) : (w.reopen fresh).Matches fresh zones := by
  obtain ⟨hbacked, htext⟩ := h.backed.text?_step hzones .reopen
  refine ⟨hbacked, ?_⟩
  rw [Event.texts, persistent, h.text] at htext
  exact htext

/-- A history without failures does what the zones say, wherever the cache is set up anew. -/
theorem Matches.answers (h : w.Matches fresh zones) (persistent : fresh.location.isNone = false)
    (named : fresh.location ≠ some "") (hzones : fresh.zones = ∅) {history : List Event}
    (succeeds : ∀ answer ∈ answers fresh w history, answer.Succeeds) :
    Cache.answers fresh w history = expected zones history ∧
      (after fresh w history).Matches fresh (zonesAfter zones history) := by
  induction history generalizing w zones with
  | nil => exact ⟨rfl, h⟩
  | cons event rest ih =>
      cases event with
      | operation o =>
          have hfirst := succeeds _ List.mem_cons_self
          obtain ⟨hanswers, hafter⟩ := ih (h.run named hzones hfirst)
            fun answer hanswer => succeeds answer (List.mem_cons_of_mem _ hanswer)
          refine ⟨?_, hafter⟩
          rw [Cache.answers, expected, h.result hfirst, hanswers]
      | reopen => exact ih (h.reopen persistent hzones) succeeds

end Workspace

section Missing

variable {path : Path} {t : FileTree}

/-- The empty path means the working directory, which is never missing. -/
theorem ne_empty_of_missing (wf : t.WellFormed) (missing : t.node? (t.place path) = none) :
    path ≠ "" := by
  rintro rfl
  have hplace : t.place "" = t.current := by rw [FileTree.place, Path.parts_empty]; rfl
  rw [hplace, wf.rooted] at missing
  cases missing

/-- Nothing is in a directory that is missing. -/
theorem unused_of_missing (wf : t.WellFormed) (missing : t.node? (t.place path) = none) :
    Unused path t := by
  intro zone
  rw [stored_of_no_file]
  intro contents hfile
  have hthere := wf.parents (t.place path) (FileName.ofZone zone)
  rw [slot] at hfile
  rw [hfile, missing] at hthere
  simp at hthere

theorem matches_ofSetup {s : Setup} (wf : t.WellFormed)
    (missing : t.node? (t.place s.directory) = none) :
    Workspace.Matches (ofSetup s) ⟨ofSetup s, t⟩ fun _ => {} where
  backed := Workspace.backed_ofSetup wf.nested fun _ => unused_of_missing wf missing
  text := by
    funext zone key
    exact Workspace.text?_ofSetup (fun _ => unused_of_missing wf missing) zone key

end Missing

/-- A persistent cache over a directory that is missing at first gives the answers of a cache
without files, if no operation fails; it may be let go of and set up anew at any point.  Whatever
happens to other zones, and whenever the cache is set up anew, a zone reads as before. -/
theorem persistent_refines_inMemory {s : Setup} (persistent : s.persistent = true) {t : FileTree}
    (wf : t.WellFormed) (missing : t.node? (t.place s.directory) = none) (history : List Event)
    (succeeds : ∀ answer ∈ answers (ofSetup s) ⟨ofSetup s, t⟩ history, answer.Succeeds) :
    answers (ofSetup s) ⟨ofSetup s, t⟩ history =
        answers inMemory ⟨inMemory, t⟩ (operationsOf history) ∧
      ∀ front rest zone, history = front ++ rest → (∀ event ∈ rest, event.Spares zone) →
        ∀ (α : Type) (decode : Json.Decoder α) key,
          ((after (ofSetup s) ⟨ofSetup s, t⟩ history).read decode zone key).1 =
            ((after (ofSetup s) ⟨ofSetup s, t⟩ front).read decode zone key).1 := by
  have start := matches_ofSetup wf missing
  have hlocation : (ofSetup s).location = some s.directory := by simp [ofSetup, persistent]
  have hsome : (ofSetup s).location.isNone = false := by rw [hlocation, Option.isNone_some]
  have named : (ofSetup s).location ≠ some "" := by
    rw [hlocation]
    exact fun h => ne_empty_of_missing wf missing (Option.some.inj h)
  constructor
  · rw [answers_operationsOf_of_keeps inMemory (keeps_inMemory t)]
    exact (start.answers hsome named rfl succeeds).1
  · rintro front rest zone rfl hrest α decode key
    rw [answers_append] at succeeds
    have hfront := (start.answers hsome named rfl
      fun answer hanswer => succeeds answer (List.mem_append_left _ hanswer)).2
    have hend := (hfront.answers hsome named rfl
      fun answer hanswer => succeeds answer (List.mem_append_right _ hanswer)).2
    rw [after_append, hend.read_fst, hfront.read_fst, zonesAfter_of_spares hrest]

/-- A zone is written, read by a new cache, and removed with all others. -/
theorem persistent_refines_inMemory_empty :
    let history : List Event :=
      [.operation (.write "host" "key" (.string "value")), .reopen,
        .operation (.read Json.Decoder.string "host" "key"),
        .operation (.cleanup none none), .reopen,
        .operation (.read Json.Decoder.string "host" "key")]
    FileTree.empty.WellFormed ∧ FileTree.empty.node? (FileTree.empty.place "./_cache") = none ∧
      answers (ofSetup {}) ⟨ofSetup {}, .empty⟩ history =
        [.done (.ok ()), .found (some "value"), .done (.ok ()), @Answer.found String none] := by
  intro history
  have wf : FileTree.empty.WellFormed := by
    refine ⟨rfl, ?_⟩
    intro location name h
    cases location with
    | nil => rfl
    | cons first rest => exact absurd (by simp [FileTree.node?, FileTree.empty, FileTree.outside]) h
  have missing : FileTree.empty.node? (FileTree.empty.place "./_cache") = none := by decide
  refine ⟨wf, missing, ?_⟩
  have succeeds :
      ∀ answer ∈ answers (ofSetup {}) ⟨ofSetup {}, .empty⟩ history, answer.Succeeds := by
    decide +kernel
  have hread : Json.decodeText? Json.Decoder.string (Json.string "value").compact = some "value" :=
    Json.decodeText?_compact (.string "value") (by decide)
  rw [(persistent_refines_inMemory (s := {}) rfl wf missing history succeeds).1,
    answers_operationsOf_of_keeps inMemory (keeps_inMemory _)]
  simp [history, expected, Operation.result, Operation.effect, Zone.read, Zone.write,
    Table.get?_insert_self, hread]

end Testbed.Cache
