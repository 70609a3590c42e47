import Mathlib.Algebra.GroupWithZero.Nat
import Mathlib.Logic.Function.Iterate
import Testbed.Proofs.Cache.Lookup

/-!
# Threads that share a cache

A call reads the cache in one step and writes it in another, and computes in between.  Other threads
may take steps at any time; a step itself is not interrupted.  Three steps are enough for a call,
and if nothing comes between them they are the call.  A thread makes its calls one after the other,
and has made all of them after three turns for each.
-/

namespace Testbed.Cache

/-! ## Steps of a call -/

namespace Lookup

/-- How far a call has come. -/
inductive Stage (E T : Type) where
  | asked
  /-- What was read does not settle the call. -/
  | missed (zone : String)
  | computed (zone : String) (value : T)
  /-- The call is over.  If it has written a value, the cache has told how that went. -/
  | answered (answer : Answer E T) (written : Option (Except Error Unit))

section Advance

variable {A T E S : Type}

/-- Whether a call is over. -/
def Stage.isOver : Stage E T → Bool
  | answered _ _ => true
  | _ => false

/-- How many steps a call takes at most until it is over. -/
def Stage.stepsLeft : Stage E T → Nat
  | asked => 3
  | missed _ => 2
  | computed _ _ => 1
  | answered _ _ => 0

theorem Stage.stepsLeft_eq_zero_iff {stage : Stage E T} :
    stage.stepsLeft = 0 ↔ stage.isOver = true := by
  cases stage <;> simp [stepsLeft, isOver]

variable (l : Lookup A T E S) (args : A) (w : Workspace)

/-- The first step of a call: what is read may settle it. -/
def consult : Stage E T × Workspace :=
  match l.zone args with
  | .error e => (.answered ⟨.error (.cache e), false⟩ none, w)
  | .ok zone =>
    if w.cache.enabled then
      match w.read l.decode zone l.name with
      | (stored, w) =>
        match l.afterRead stored args with
        | some value => (.answered ⟨.ok value, false⟩ none, w)
        | none => (.missed zone, w)
    else (.answered (.ofComputation (l.compute w.files args)) none, w)

/-- The step in which a value is computed. -/
def produce (zone : String) : Stage E T :=
  match l.compute w.files args with
  | .error e => .answered (.ofComputation (.error e)) none
  | .ok value => .computed zone value

/-- The step in which a computed value is written. -/
def store (zone : String) (value : T) : Stage E T × Workspace :=
  match w.write zone l.name (l.encode (l.beforeWrite value args)) with
  | (result, w) => (.answered (.ofComputation (.ok value)) (some result), w)

/-- The next step of a call. -/
def advance : Stage E T → Stage E T × Workspace
  | .asked => l.consult args w
  | .missed zone => (l.produce args w zone, w)
  | .computed zone value => l.store args w zone value
  | .answered answer written => (.answered answer written, w)

variable {l args w} {zone : String}

theorem consult_of_error {e : Error} (h : l.zone args = .error e) :
    l.consult args w = (.answered ⟨.error (.cache e), false⟩ none, w) := by
  rw [consult, h]

theorem consult_of_disabled (h : l.zone args = .ok zone) (disabled : w.cache.enabled = false) :
    l.consult args w = (.answered (.ofComputation (l.compute w.files args)) none, w) := by
  simp [consult, h, disabled]

theorem consult_of_enabled (h : l.zone args = .ok zone) (enabled : w.cache.enabled = true) :
    l.consult args w =
      (match l.afterRead (w.read l.decode zone l.name).1 args with
        | some value => .answered ⟨.ok value, false⟩ none
        | none => .missed zone,
        (w.openZone zone).2) := by
  rw [← w.read_snd l.decode zone l.name, consult, h]
  dsimp only
  rw [if_pos enabled]
  rcases l.afterRead (w.read l.decode zone l.name).1 args with - | value
  · rfl
  · rfl

/-- Three steps that nothing comes between are the call. -/
theorem advance_iterate (l : Lookup A T E S) (args : A) (w : Workspace) :
    ∃ written, (fun s => l.advance args s.2 s.1)^[3] (.asked, w) =
      (.answered (l.call w args).1 written, (l.call w args).2) := by
  simp only [Function.iterate_succ_apply, Function.iterate_zero_apply, advance]
  rcases hzone : l.zone args with e | zone
  · rw [consult_of_error hzone, call_of_error hzone]
    exact ⟨none, rfl⟩
  · rcases henabled : w.cache.enabled with - | -
    · rw [consult_of_disabled hzone henabled, call_of_disabled hzone henabled]
      exact ⟨none, rfl⟩
    · rw [consult_of_enabled hzone henabled]
      rcases htaken : l.afterRead (w.read l.decode zone l.name).1 args with - | value
      · rw [call_of_not_taken hzone henabled htaken]
        dsimp only [produce]
        rcases l.compute (w.openZone zone).2.files args with e | value
        · exact ⟨none, rfl⟩
        · exact ⟨some _, rfl⟩
      · rw [call_of_taken hzone henabled htaken]
        exact ⟨none, rfl⟩

theorem stepsLeft_advance (l : Lookup A T E S) (args : A) (w : Workspace) (stage : Stage E T) :
    (l.advance args w stage).1.stepsLeft ≤ stage.stepsLeft - 1 := by
  cases stage with
  | asked =>
      rw [advance]
      rcases hzone : l.zone args with e | zone
      · rw [consult_of_error hzone]
        exact Nat.zero_le _
      · rcases henabled : w.cache.enabled with - | -
        · rw [consult_of_disabled hzone henabled]
          exact Nat.zero_le _
        · rw [consult_of_enabled hzone henabled]
          dsimp only
          split
          case h_1 => exact Nat.zero_le _
          case h_2 => exact Nat.le_refl _
  | missed zone =>
      dsimp only [advance, produce]
      split
      case h_1 => exact Nat.zero_le _
      case h_2 => exact Nat.le_refl _
  | computed zone value => exact Nat.le_refl _
  | answered answer written => exact Nat.le_refl _

end Advance

end Lookup

/-! ## Turns of threads -/

section Family

open Lookup (Stage)

variable {ι : Type} {A T E S : ι → Type}

/-- A call of one of several look-ups. -/
structure Call (A T E : ι → Type) where
  lookup : ι
  args : A lookup
  stage : Stage (E lookup) (T lookup) := .asked

namespace Call

/-- What is called with which arguments. -/
def request (c : Call A T E) : Σ i, A i := ⟨c.lookup, c.args⟩

/-- A call whose first step is yet to come. -/
def ofRequest (r : Σ i, A i) : Call A T E := { lookup := r.1, args := r.2 }

/-- The next step of a call. -/
def step (ls : ∀ i, Lookup (A i) (T i) (E i) (S i)) (c : Call A T E) (w : Workspace) :
    Call A T E × Workspace :=
  let (stage, w) := (ls c.lookup).advance c.args w c.stage
  ({ c with stage }, w)

end Call

/-- Threads with their calls in order, and the cache that they share. -/
structure Session (A T E : ι → Type) where
  workspace : Workspace
  threads : List (List (Call A T E))

namespace Session

variable (ls : ∀ i, Lookup (A i) (T i) (E i) (S i))

/-- The first call that is not over takes its next step. -/
def proceed : List (Call A T E) → Workspace → List (Call A T E) × Workspace
  | [], w => ([], w)
  | c :: rest, w =>
    if c.stage.isOver then
      let (rest, w) := proceed rest w
      (c :: rest, w)
    else
      let (c, w) := c.step ls w
      (c :: rest, w)

/-- A thread takes a turn.  One that does not exist, or has made all its calls, does nothing. -/
def turn (s : Session A T E) (thread : Nat) : Session A T E :=
  match s.threads[thread]? with
  | none => s
  | some calls =>
    let (calls, workspace) := proceed ls calls s.workspace
    { workspace, threads := s.threads.set thread calls }

/-- The threads take turns. -/
def run (s : Session A T E) (turns : List Nat) : Session A T E := turns.foldl (turn ls) s

/-- All calls of all threads. -/
def calls (s : Session A T E) : List (Call A T E) := s.threads.flatten

/-- What the threads are to call. -/
def requests (s : Session A T E) : List (List (Σ i, A i)) :=
  s.threads.map fun calls => calls.map Call.request

/-- Threads before their first turns. -/
def start (w : Workspace) (requests : List (List (Σ i, A i))) : Session A T E where
  workspace := w
  threads := requests.map fun calls => calls.map Call.ofRequest

variable {ls}

theorem requests_start (w : Workspace) (requests : List (List (Σ i, A i))) :
    (start (T := T) (E := E) w requests).requests = requests := by
  simp [Session.requests, start, Call.ofRequest, Call.request, Function.comp_def]

/-- A thread has made all its calls, or the first that is not over takes a step. -/
theorem proceed_cases (ls : ∀ i, Lookup (A i) (T i) (E i) (S i)) (calls : List (Call A T E))
    (w : Workspace) :
    (∀ c ∈ calls, c.stage.isOver = true) ∧ proceed ls calls w = (calls, w) ∨
    ∃ before c after, calls = before ++ c :: after ∧ c.stage.isOver = false ∧
      proceed ls calls w = (before ++ (c.step ls w).1 :: after, (c.step ls w).2) := by
  induction calls with
  | nil => exact Or.inl ⟨by simp, rfl⟩
  | cons first rest ih =>
      rw [proceed]
      by_cases hover : first.stage.isOver = true
      · rw [if_pos hover]
        rcases ih with ⟨hall, hsame⟩ | ⟨before, c, after, hrest, hc, hstep⟩
        · rw [hsame]
          exact Or.inl ⟨List.forall_mem_cons.mpr ⟨hover, hall⟩, rfl⟩
        · rw [hstep]
          exact Or.inr ⟨first :: before, c, after, by rw [hrest]; rfl, hc, rfl⟩
      · rw [if_neg hover]
        exact Or.inr ⟨[], first, rest, rfl, by simpa using hover, rfl⟩

/-- One call, which was not over, has taken a step. -/
def Stepped (ls : ∀ i, Lookup (A i) (T i) (E i) (S i)) (s s' : Session A T E) : Prop :=
  ∃ before c after, s.calls = before ++ c :: after ∧ c.stage.isOver = false ∧
    s'.calls = before ++ (c.step ls s.workspace).1 :: after ∧
    s'.workspace = (c.step ls s.workspace).2

theorem exists_of_getElem? {α : Type} {l : List α} {i : Nat} {a : α} (h : l[i]? = some a) :
    ∃ front back, l = front ++ a :: back ∧ front.length = i := by
  obtain ⟨hlt, rfl⟩ := List.getElem?_eq_some_iff.mp h
  refine ⟨l.take i, l.drop (i + 1), ?_, List.length_take_of_le (Nat.le_of_lt hlt)⟩
  rw [List.getElem_cons_drop, List.take_append_drop]

/-- In a turn nothing happens, or one call takes a step. -/
theorem turn_cases (ls : ∀ i, Lookup (A i) (T i) (E i) (S i)) (s : Session A T E) (thread : Nat) :
    s.turn ls thread = s ∨ s.Stepped ls (s.turn ls thread) := by
  rw [turn]
  split
  case h_1 => exact Or.inl rfl
  case h_2 calls hcalls =>
      obtain ⟨front, back, hthreads, rfl⟩ := exists_of_getElem? hcalls
      rcases proceed_cases ls calls s.workspace with
        ⟨-, hsame⟩ | ⟨before, c, after, hsplit, hc, hstep⟩
      · rw [hsame]
        dsimp only
        rw [hthreads, List.set_append_right _ _ (Nat.le_refl _), Nat.sub_self, List.set_cons_zero,
          ← hthreads]
        exact Or.inl rfl
      · refine Or.inr ⟨front.flatten ++ before, c, after ++ back.flatten, ?_, hc, ?_, ?_⟩
        · rw [Session.calls, hthreads, hsplit]
          simp
        · rw [hstep, Session.calls]
          dsimp only
          rw [hthreads, List.set_append_right _ _ (Nat.le_refl _), Nat.sub_self,
            List.set_cons_zero]
          simp
        · rw [hstep]

/-- What holds at first and is kept by every step holds after any turns. -/
theorem run_preserves {P : Session A T E → Prop} {s : Session A T E} (h : P s)
    (step : ∀ s s', P s → s.Stepped ls s' → P s') (turns : List Nat) : P (s.run ls turns) := by
  induction turns generalizing s with
  | nil => exact h
  | cons thread rest ih =>
      apply ih
      rcases s.turn_cases ls thread with hsame | hstepped
      · rwa [hsame]
      · exact step s _ h hstepped

/-! ## Threads that make all their calls -/

/-- How many steps a thread takes at most until its calls are over. -/
def stepsLeft (calls : List (Call A T E)) : Nat := (calls.map (·.stage.stepsLeft)).sum

theorem stepsLeft_eq_zero_iff {calls : List (Call A T E)} :
    stepsLeft calls = 0 ↔ ∀ c ∈ calls, c.stage.isOver = true := by
  simp only [stepsLeft, List.sum_eq_zero_iff_forall_eq_nat, List.forall_mem_map,
    Stage.stepsLeft_eq_zero_iff]

theorem stepsLeft_ofRequest (requests : List (Σ i, A i)) :
    stepsLeft (requests.map (Call.ofRequest (T := T) (E := E))) = 3 * requests.length := by
  induction requests with
  | nil => rfl
  | cons r rest ih =>
      have hcons : stepsLeft ((r :: rest).map (Call.ofRequest (T := T) (E := E))) =
          3 + stepsLeft (rest.map (Call.ofRequest (T := T) (E := E))) := rfl
      rw [hcons, ih, List.length_cons]
      omega

theorem stepsLeft_proceed (ls : ∀ i, Lookup (A i) (T i) (E i) (S i)) (calls : List (Call A T E))
    (w : Workspace) :
    stepsLeft (proceed ls calls w).1 ≤ stepsLeft calls - 1 := by
  rcases proceed_cases ls calls w with ⟨hall, hsame⟩ | ⟨before, c, after, hsplit, hc, hstep⟩
  · have hzero : stepsLeft (proceed ls calls w).1 = 0 := by
      rw [hsame]
      exact stepsLeft_eq_zero_iff.mpr hall
    omega
  · have hless := Lookup.stepsLeft_advance (ls c.lookup) c.args w c.stage
    have hpos : c.stage.stepsLeft ≠ 0 := by
      rw [Ne, Stage.stepsLeft_eq_zero_iff, hc]
      exact Bool.false_ne_true
    rw [hstep, hsplit]
    simp only [stepsLeft, List.map_append, List.map_cons, List.sum_append, List.sum_cons, Call.step]
    omega

theorem requests_proceed (ls : ∀ i, Lookup (A i) (T i) (E i) (S i)) (calls : List (Call A T E))
    (w : Workspace) :
    (proceed ls calls w).1.map Call.request = calls.map Call.request := by
  rcases proceed_cases ls calls w with ⟨-, hsame⟩ | ⟨before, c, after, hsplit, -, hstep⟩
  · rw [hsame]
  · rw [hstep, hsplit, List.map_append, List.map_append, List.map_cons, List.map_cons]
    rfl

theorem threads_turn (ls : ∀ i, Lookup (A i) (T i) (E i) (S i)) (s : Session A T E)
    (thread other : Nat) :
    (s.turn ls thread).threads[other]? =
      if other = thread then
        s.threads[other]?.map fun calls => (proceed ls calls s.workspace).1
      else s.threads[other]? := by
  rw [turn]
  split
  case h_1 hnone =>
      split
      case isTrue hsame => rw [hsame, hnone, Option.map_none]
      case isFalse => rfl
  case h_2 calls hcalls =>
      have hlt := (List.getElem?_eq_some_iff.mp hcalls).1
      dsimp only
      rw [List.getElem?_set]
      by_cases hsame : thread = other
      · subst hsame
        rw [if_pos rfl, if_pos hlt, if_pos rfl, hcalls]
        rfl
      · rw [if_neg hsame, if_neg (Ne.symm hsame)]

/-- Whatever the others do, every turn of a thread brings it closer to the end of its calls. -/
theorem stepsLeft_run (ls : ∀ i, Lookup (A i) (T i) (E i) (S i)) (turns : List Nat)
    {s : Session A T E} {thread : Nat}
    {calls : List (Call A T E)} (h : s.threads[thread]? = some calls) :
    ∃ calls', (s.run ls turns).threads[thread]? = some calls' ∧
      stepsLeft calls' ≤ stepsLeft calls - turns.count thread := by
  induction turns generalizing s calls with
  | nil => exact ⟨calls, h, Nat.le_refl _⟩
  | cons first rest ih =>
      have hturn := threads_turn ls s first thread
      by_cases hsame : thread = first
      · subst hsame
        rw [if_pos rfl, h, Option.map_some] at hturn
        obtain ⟨calls', hcalls', hle⟩ := ih hturn
        have hless := stepsLeft_proceed ls calls s.workspace
        refine ⟨calls', hcalls', ?_⟩
        rw [List.count_cons_self]
        omega
      · rw [if_neg hsame, h] at hturn
        obtain ⟨calls', hcalls', hle⟩ := ih hturn
        refine ⟨calls', hcalls', ?_⟩
        rwa [List.count_cons_of_ne (Ne.symm hsame)]

/-- A thread that has had three turns for each of its calls has made them all. -/
theorem over_of_turns (ls : ∀ i, Lookup (A i) (T i) (E i) (S i)) (w : Workspace)
    {requests : List (List (Σ i, A i))} {turns : List Nat} {thread : Nat} {asked : List (Σ i, A i)}
    (h : requests[thread]? = some asked) (enough : 3 * asked.length ≤ turns.count thread) :
    ∃ calls : List (Call A T E), ((start w requests).run ls turns).threads[thread]? = some calls ∧
      ∀ c ∈ calls, c.stage.isOver = true := by
  have hstart : (start (T := T) (E := E) w requests).threads[thread]? =
      some (asked.map Call.ofRequest) := by
    rw [start, List.getElem?_map, h, Option.map_some]
  obtain ⟨calls, hcalls, hle⟩ := stepsLeft_run ls turns hstart
  rw [stepsLeft_ofRequest] at hle
  exact ⟨calls, hcalls, stepsLeft_eq_zero_iff.mp (by omega)⟩

theorem requests_turn (s : Session A T E) (thread : Nat) :
    (s.turn ls thread).requests = s.requests := by
  apply List.ext_getElem?
  intro other
  rw [Session.requests, Session.requests, List.getElem?_map, List.getElem?_map, threads_turn]
  split
  case isTrue =>
      rcases s.threads[other]? with - | calls
      · rfl
      · exact congrArg some (requests_proceed ls calls s.workspace)
  case isFalse => rfl

/-- The threads call what they are to call. -/
theorem requests_run (s : Session A T E) (turns : List Nat) :
    (s.run ls turns).requests = s.requests := by
  induction turns generalizing s with
  | nil => rfl
  | cons thread rest ih => exact (ih _).trans (s.requests_turn thread)

end Session

end Family

end Testbed.Cache
