import Testbed.Cache.Basic
import Testbed.Proofs.Table

/-!
# Histories of a cache

A history is a sequence of operations in which the cache may be let go of and set up anew at any
point.  What it should answer is said by zones alone, without files and without anything to open: an
operation reads the zones and changes them, and setting the cache up anew changes nothing.  A cache
without files does just that.
-/

namespace Testbed.Cache

/-- What can be asked of a cache. -/
inductive Operation : Type 1 where
  | read {α : Type} (decode : Json.Decoder α) (zone key : String)
  | write (zone key : String) (value : Json)
  | cleanup (zone key : Option String)

/-- What an operation tells. -/
inductive Answer : Type 1 where
  | found {α : Type} (value : Option α)
  | done (result : Except Error Unit)

/-- The operation has not failed.  A read never says that it has. -/
def Answer.Succeeds : Answer → Prop
  | found _ => True
  | done (.ok ()) => True
  | done (.error _) => False

instance : DecidablePred Answer.Succeeds
  | .found _ => .isTrue trivial
  | .done (.ok ()) => .isTrue trivial
  | .done (.error _) => .isFalse id

theorem Answer.succeeds_done {result : Except Error Unit} :
    (done result).Succeeds ↔ result = .ok () := by
  cases result with
  | ok _ => simp [Succeeds]
  | error e => simp [Succeeds]

namespace Operation

/-- Do an operation. -/
def run (w : Workspace) : Operation → Answer × Workspace
  | read decode zone key => (.found (w.read decode zone key).1, (w.read decode zone key).2)
  | write zone key value => (.done (w.write zone key value).1, (w.write zone key value).2)
  | cleanup zone key => (.done (w.cleanup zone key).1, (w.cleanup zone key).2)

/-- The zone that an operation is about; everything is about none. -/
def zone? : Operation → Option String
  | read _ zone _ => some zone
  | write zone _ _ => some zone
  | cleanup zone _ => zone

end Operation

/-- What happens in a history. -/
inductive Event : Type 1 where
  | operation (o : Operation)
  | reopen

/-- What the operations of a history tell. -/
def answers (fresh : Cache) : Workspace → List Event → List Answer
  | _, [] => []
  | w, .operation o :: rest => (o.run w).1 :: answers fresh (o.run w).2 rest
  | w, .reopen :: rest => answers fresh (w.reopen fresh) rest

/-- The workspace after a history. -/
def after (fresh : Cache) : Workspace → List Event → Workspace
  | w, [] => w
  | w, .operation o :: rest => after fresh (o.run w).2 rest
  | w, .reopen :: rest => after fresh (w.reopen fresh) rest

/-- Whether an event is an operation. -/
def Event.isOperation : Event → Bool
  | operation _ => true
  | reopen => false

/-- The history with all its operations, and with the same cache throughout. -/
def operationsOf (history : List Event) : List Event := history.filter Event.isOperation

theorem answers_append (fresh : Cache) (w : Workspace) (front rest : List Event) :
    answers fresh w (front ++ rest) =
      answers fresh w front ++ answers fresh (after fresh w front) rest := by
  induction front generalizing w with
  | nil => rfl
  | cons event front ih =>
      cases event with
      | operation o => exact congrArg _ (ih _)
      | reopen => exact ih _

theorem after_append (fresh : Cache) (w : Workspace) (front rest : List Event) :
    after fresh w (front ++ rest) = after fresh (after fresh w front) rest := by
  induction front generalizing w with
  | nil => rfl
  | cons event front ih => cases event <;> exact ih _

/-! ## Zones alone -/

/-- The zones by their names; one that was never used is empty. -/
abbrev Zones := String → Zone

/-- Put a zone in place of the one of its name. -/
def Zones.set (zones : Zones) (zone : String) (z : Zone) : Zones :=
  fun other => if other = zone then z else zones other

@[simp] theorem Zones.set_self (zones : Zones) (zone : String) (z : Zone) :
    zones.set zone z zone = z := by
  simp [Zones.set]

theorem Zones.set_of_ne (zones : Zones) {zone other : String} (z : Zone) (h : other ≠ zone) :
    zones.set zone z other = zones other := by
  simp [Zones.set, h]

theorem Zones.set_eq_self {zones : Zones} {zone : String} {z : Zone} (h : zones zone = z) :
    zones.set zone z = zones := by
  funext other
  by_cases hsame : other = zone
  · subst hsame
    rw [Zones.set_self, h]
  · exact Zones.set_of_ne zones z hsame

namespace Operation

/-- What an operation should tell. -/
def result (zones : Zones) : Operation → Answer
  | read decode zone key => .found ((zones zone).read decode key)
  | write _ _ _ => .done (.ok ())
  | cleanup _ _ => .done (.ok ())

/-- What an operation should make of the zones. -/
def effect (zones : Zones) : Operation → Zones
  | read _ _ _ => zones
  | write zone key value => zones.set zone ((zones zone).write key value)
  | cleanup (some zone) (some key) =>
    if (zones zone).has key then zones.set zone ((zones zone).erase key) else zones
  | cleanup (some zone) none => zones.set zone {}
  | cleanup none _ => fun _ => {}

/-- An operation on one zone leaves all others as they are. -/
theorem effect_of_ne {o : Operation} {zone other : String} (h : o.zone? = some zone)
    (hne : other ≠ zone) (zones : Zones) : o.effect zones other = zones other := by
  cases o with
  | read decode z key => rfl
  | write z key value =>
      cases h
      exact Zones.set_of_ne zones _ hne
  | cleanup z key =>
      cases z with
      | none => cases h
      | some z =>
          cases h
          cases key with
          | none => exact Zones.set_of_ne zones _ hne
          | some key =>
              simp only [effect]
              split
              case isTrue => exact Zones.set_of_ne zones _ hne
              case isFalse => rfl

end Operation

/-- What a history should tell. -/
def expected : Zones → List Event → List Answer
  | _, [] => []
  | zones, .operation o :: rest => o.result zones :: expected (o.effect zones) rest
  | zones, .reopen :: rest => expected zones rest

/-- The zones after a history. -/
def zonesAfter : Zones → List Event → Zones
  | zones, [] => zones
  | zones, .operation o :: rest => zonesAfter (o.effect zones) rest
  | zones, .reopen :: rest => zonesAfter zones rest

theorem expected_operationsOf (zones : Zones) (history : List Event) :
    expected zones (operationsOf history) = expected zones history := by
  induction history generalizing zones with
  | nil => rfl
  | cons event rest ih =>
      cases event with
      | operation o => exact congrArg (o.result zones :: ·) (ih _)
      | reopen => exact ih _

/-- An event that is not about a zone: an operation on another zone, or a new cache. -/
def Event.Spares (zone : String) : Event → Prop
  | operation o => ∃ other, o.zone? = some other ∧ zone ≠ other
  | reopen => True

theorem zonesAfter_of_spares {zone : String} {history : List Event}
    (h : ∀ event ∈ history, event.Spares zone) (zones : Zones) :
    zonesAfter zones history zone = zones zone := by
  induction history generalizing zones with
  | nil => rfl
  | cons event rest ih =>
      have hrest := ih fun e he => h e (List.mem_cons_of_mem event he)
      cases event with
      | operation o =>
          obtain ⟨other, hzone, hne⟩ := h (.operation o) List.mem_cons_self
          exact (hrest _).trans (Operation.effect_of_ne hzone hne zones)
      | reopen => exact hrest _

/-! ## Operations on an open zone -/

namespace Workspace

section Open

variable {w w' : Workspace} {zone : String} {z : Zone} {e : Error}

theorem read_of_openZone (h : w.openZone zone = (.ok z, w')) {α : Type} (decode : Json.Decoder α)
    (key : String) : w.read decode zone key = (z.read decode key, w') := by
  simp [Workspace.read, h]

theorem read_of_error (h : w.openZone zone = (.error e, w')) {α : Type} (decode : Json.Decoder α)
    (key : String) : w.read decode zone key = (none, w') := by
  simp [Workspace.read, h]

theorem write_of_openZone (h : w.openZone zone = (.ok z, w')) (key : String) (value : Json) :
    w.write zone key value = w'.update zone (z.write key value) := by
  simp [Workspace.write, h]

theorem write_of_error (h : w.openZone zone = (.error e, w')) (key : String) (value : Json) :
    w.write zone key value = (.error e, w') := by
  simp [Workspace.write, h]

theorem removeEntry_of_openZone (h : w.openZone zone = (.ok z, w')) (key : String) :
    w.removeEntry zone key =
      if z.has key then w'.update zone (z.erase key) else (.ok (), w') := by
  simp [Workspace.removeEntry, h]

theorem removeEntry_of_error (h : w.openZone zone = (.error e, w')) (key : String) :
    w.removeEntry zone key = (.error e, w') := by
  simp [Workspace.removeEntry, h]

end Open

/-! ## Letting go of zones -/

section LettingGo

variable {w : Workspace} {location : Path}

/-- A removed zone is out of memory, even if its file cannot be removed. -/
theorem cache_removeZone (w : Workspace) (zone : String) :
    (w.removeZone zone).2.cache = { w.cache with zones := w.cache.zones.erase zone } := by
  unfold Workspace.removeZone
  dsimp only
  repeat' split
  all_goals rfl

theorem cache_removeAll (w : Workspace) :
    w.removeAll.2.cache = { w.cache with zones := ∅ } := by
  unfold Workspace.removeAll
  dsimp only
  repeat' split
  all_goals rfl

/-- The files after the cache has let go of a zone. -/
def flushZone (w : Workspace) (zone : String) : FileTree :=
  match w.cache.zones.get? zone with
  | none => w.files
  | some z => flush w.files w.cache.location zone z

/-- What letting go of one zone preserves is preserved by letting go of a zone, or of all. -/
theorem flushZone_preserves {P : FileTree → Prop}
    (hflush : ∀ files zone z, w.cache.zones.get? zone = some z → P files →
      P (flush files w.cache.location zone z))
    (h : P w.files) (zone : String) : P (w.flushZone zone) := by
  unfold flushZone
  split
  case h_1 => exact h
  case h_2 z hget => exact hflush w.files zone z hget h

theorem flushAll_preserves {P : FileTree → Prop}
    (hflush : ∀ files zone z, w.cache.zones.get? zone = some z → P files →
      P (flush files w.cache.location zone z))
    (h : P w.files) : P w.flushAll := by
  apply List.foldlRecOn _ _ h
  intro files hfiles entry hentry
  exact hflush files entry.1 entry.2 (Table.mem_entries.mp hentry) hfiles

theorem removeZone_of_persistent (h : w.cache.location = some location) (zone : String) :
    w.removeZone zone =
      let cache := { w.cache with zones := w.cache.zones.erase zone }
      let path := zonePath location zone
      if (w.flushZone zone).exists? path then
        match (w.flushZone zone).removeFile path with
        | .ok files => (.ok (), ⟨cache, files⟩)
        | .error cause => (.error (.directory path cause), ⟨cache, w.flushZone zone⟩)
      else (.ok (), ⟨cache, w.flushZone zone⟩) := by
  unfold Workspace.removeZone
  dsimp only
  split
  case h_1 hnone =>
      rw [h] at hnone
      cases hnone
  case h_2 there hthere =>
      rw [h] at hthere
      cases hthere
      rfl

end LettingGo

/-! ## A cache without files -/

/-- The cache has no files, and keeps these zones in memory. -/
structure Keeps (w : Workspace) (zones : Zones) : Prop where
  location : w.cache.location = none
  memory : ∀ zone, (w.cache.zones.get? zone).getD {} = zones zone

theorem Keeps.hold {w : Workspace} {zones : Zones} (h : w.Keeps zones) (zone : String) (z : Zone) :
    (w.hold zone z).Keeps (zones.set zone z) where
  location := h.location
  memory := by
    intro other
    have hget : (w.hold zone z).cache.zones.get? other =
        if other = zone then some z else w.cache.zones.get? other :=
      Table.get?_insert w.cache.zones zone z other
    rw [hget, Zones.set]
    split
    case isTrue => rfl
    case isFalse => exact h.memory other

theorem Keeps.openZone {w : Workspace} {zones : Zones} (h : w.Keeps zones) (zone : String) :
    ∃ w', w.openZone zone = (.ok (zones zone), w') ∧ w'.Keeps zones := by
  have hmemory := h.memory zone
  cases hget : w.cache.zones.get? zone with
  | some z =>
      rw [hget] at hmemory
      refine ⟨w, ?_, h⟩
      simp [Workspace.openZone, hget, ← hmemory]
  | none =>
      rw [hget] at hmemory
      have hempty : zones zone = {} := hmemory.symm
      refine ⟨w.hold zone {}, ?_, ?_⟩
      · simp [Workspace.openZone, hget, h.location, hempty]
      · have hhold := h.hold zone {}
        rwa [Zones.set_eq_self hempty] at hhold

theorem Keeps.update {w : Workspace} {zones : Zones} (h : w.Keeps zones) (zone : String)
    (z : Zone) :
    ∃ w', w.update zone z = (.ok (), w') ∧ w'.Keeps (zones.set zone z) :=
  ⟨w.hold zone z, by simp [Workspace.update, h.location], h.hold zone z⟩

theorem Keeps.removeEntry {w : Workspace} {zones : Zones} (h : w.Keeps zones) (zone key : String) :
    ∃ w', w.removeEntry zone key = (.ok (), w') ∧
      w'.Keeps (Operation.effect zones (.cleanup (some zone) (some key))) := by
  obtain ⟨w₁, hopen, hkeeps⟩ := h.openZone zone
  rw [removeEntry_of_openZone hopen, Operation.effect]
  split
  case isTrue => exact hkeeps.update zone _
  case isFalse => exact ⟨w₁, rfl, hkeeps⟩

theorem Keeps.removeZone {w : Workspace} {zones : Zones} (h : w.Keeps zones) (zone : String) :
    ∃ w', w.removeZone zone = (.ok (), w') ∧ w'.Keeps (zones.set zone {}) := by
  refine ⟨(w.removeZone zone).2, ?_, ?_, ?_⟩
  · simp [Workspace.removeZone, h.location]
  · rw [cache_removeZone]
    exact h.location
  intro other
  rw [cache_removeZone, Table.get?_erase, Zones.set]
  split
  case isTrue => rfl
  case isFalse => exact h.memory other

theorem Keeps.removeAll {w : Workspace} {zones : Zones} (h : w.Keeps zones) :
    ∃ w', w.removeAll = (.ok (), w') ∧ w'.Keeps fun _ => {} := by
  refine ⟨w.removeAll.2, ?_, ?_, ?_⟩
  · simp [Workspace.removeAll, h.location]
  · rw [cache_removeAll]
    exact h.location
  · intro zone
    rw [cache_removeAll]
    rfl

/-- A cache without files does what the zones say. -/
theorem Keeps.run {w : Workspace} {zones : Zones} (h : w.Keeps zones) (o : Operation) :
    (o.run w).1 = o.result zones ∧ (o.run w).2.Keeps (o.effect zones) := by
  cases o with
  | read decode zone key =>
      obtain ⟨w', hopen, hkeeps⟩ := h.openZone zone
      rw [Operation.run, read_of_openZone hopen]
      exact ⟨rfl, hkeeps⟩
  | write zone key value =>
      obtain ⟨w₁, hopen, hkeeps⟩ := h.openZone zone
      obtain ⟨w', hupdate, hafter⟩ := hkeeps.update zone ((zones zone).write key value)
      rw [Operation.run, write_of_openZone hopen, hupdate]
      exact ⟨rfl, hafter⟩
  | cleanup zone key =>
      obtain ⟨w', hcleanup, hafter⟩ : ∃ w', w.cleanup zone key = (.ok (), w') ∧
          w'.Keeps (Operation.effect zones (.cleanup zone key)) := by
        cases zone with
        | none => exact h.removeAll
        | some zone =>
            cases key with
            | none => exact h.removeZone zone
            | some key => exact h.removeEntry zone key
      rw [Operation.run, hcleanup]
      exact ⟨rfl, hafter⟩

end Workspace

/-- A cache without files that is never set up anew answers as the zones say. -/
theorem answers_operationsOf_of_keeps (fresh : Cache) {w : Workspace} {zones : Zones}
    (h : w.Keeps zones) (history : List Event) :
    answers fresh w (operationsOf history) = expected zones history := by
  rw [← expected_operationsOf]
  induction history generalizing w zones with
  | nil => rfl
  | cons event rest ih =>
      cases event with
      | operation o =>
          obtain ⟨hresult, hkeeps⟩ := h.run o
          have hrest := ih hkeeps
          simp only [operationsOf, List.filter_cons, Event.isOperation, if_true, answers, expected]
            at hrest ⊢
          rw [hresult, hrest]
      | reopen => exact ih h

theorem keeps_inMemory (files : FileTree) : Workspace.Keeps ⟨inMemory, files⟩ fun _ => {} :=
  ⟨rfl, fun _ => rfl⟩

end Testbed.Cache
