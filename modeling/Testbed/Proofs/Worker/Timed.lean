import Testbed.Proofs.Worker.Completeness
import Testbed.Proofs.Worker.Deadline

/-!
# Runs of workers that end at given times

When it is known how the target ends on each node, and when, the report of a run follows from the
last pass of the barrier: the first one after which the deadline is over, or without a deadline one
that comes after all ends.  A run reports values if all workers have ended by that pass, all of them
with a value; it reports a failure if some worker has failed by then; and otherwise it gives up, and
names the nodes whose workers have not ended by then, in their order.
-/

namespace Testbed.Worker.Parallel

open Barrier (Clock Entrant IsLast Verdict Watch joinAll latest places)

universe u

variable {T : Type u}

/-! ## What is found of a node -/

/-- Whether the worker of a node has ended by a time. -/
def Node.endedBy (n : Node T) (now : Nat) : Bool := n.time.any (· ≤ now)

theorem Node.statusAt_entrant (n : Node T) (now : Nat) :
    n.entrant.statusAt now =
      if n.endedBy now then found (n.body.outcome n.name) else .running := by
  rw [Entrant.statusAt, Node.endedBy, Node.entrant]
  cases n.time with
  | none => rfl
  | some time => cases n.body.outcome n.name <;> simp [found, Except.map]

theorem found_ne_running (outcome : Except Failure T) : found outcome ≠ .running := by
  cases outcome <;> simp [found]

theorem Node.statusAt_entrant_eq_running {n : Node T} {now : Nat} :
    n.entrant.statusAt now = .running ↔ n.endedBy now = false := by
  rw [n.statusAt_entrant]
  cases n.endedBy now with
  | false => simp
  | true => simp [found_ne_running]

theorem Node.statusAt_entrant_eq_failed {n : Node T} {now : Nat} {f : Failure} :
    n.entrant.statusAt now = .failed f ↔
      n.endedBy now = true ∧ n.body.outcome n.name = .error f := by
  rw [n.statusAt_entrant]
  cases n.endedBy now with
  | false => simp
  | true => cases n.body.outcome n.name <;> simp [found]

/-- Only a target that gives a value ends with success. -/
theorem Node.statusAt_entrant_eq_succeeded {n : Node T} {now : Nat} :
    n.entrant.statusAt now = .succeeded ↔ n.endedBy now = true ∧ ∃ v, n.body = .value v := by
  rw [n.statusAt_entrant]
  cases n.endedBy now with
  | false => simp
  | true => cases n.body <;> simp [Ending.outcome, found]

/-! ## The report -/

/-- No worker that has ended by a time has failed. -/
def NoneFailed (nodes : List (Node T)) (now : Nat) : Prop :=
  ∀ n ∈ nodes, n.endedBy now = true → ∀ f, n.body.outcome n.name ≠ .error f

/-- What is right to report if a pass is the last one. -/
def RightAt (clock : Clock) (timeout : Duration) (nodes : List (Node T)) (last : Nat) :
    Report T → Prop
  | .values t =>
    (∀ n ∈ nodes, n.endedBy (clock.passTime last) = true) ∧ Collected Node.body nodes t
  | .failed (.failed f) =>
    ∃ n ∈ nodes, n.endedBy (clock.passTime last) = true ∧ n.body.outcome n.name = .error f
  | .failed (.timedOut names) =>
    (∃ deadline, clock.deadline? timeout = some deadline ∧
      deadline < clock.start + clock.passTime (last + 1)) ∧
    names ≠ [] ∧
    names = (nodes.filter fun n => !n.endedBy (clock.passTime last)).map (·.name) ∧
    NoneFailed nodes (clock.passTime last)
  | .panicked _ => False
  | .waiting =>
    clock.deadline? timeout = none ∧ (∃ n ∈ nodes, n.time = none) ∧
      NoneFailed nodes (clock.passTime last)

section Suits

variable {clock : Clock} {timeout : Duration} {nodes : List (Node T)} {last : Nat}

theorem noneFailed_of_places
    (h : ∀ place ∈ places ((nodes.map Node.entrant).map (·.name)), ∀ f,
      (Watch.ofClock clock timeout (nodes.map Node.entrant)).status last place.number ≠ .failed f) :
    NoneFailed nodes (clock.passTime last) := by
  rw [Barrier.forall_places_iff _ _ _ (motive := fun status => ∀ f, status ≠ .failed f),
    List.forall_mem_map] at h
  intro n hn hended f hfailed
  exact h n hn f (Node.statusAt_entrant_eq_failed.mpr ⟨hended, hfailed⟩)

/-- The names of the workers still running are those of the nodes not ended, in their order. -/
theorem names_stillRunning_entrant (clock : Clock) (timeout : Duration) (nodes : List (Node T))
    (last : Nat) :
    (Barrier.stillRunning ((Watch.ofClock clock timeout (nodes.map Node.entrant)).status last)
        (places ((nodes.map Node.entrant).map (·.name)))).map (·.name) =
      (nodes.filter fun n => !n.endedBy (clock.passTime last)).map (·.name) := by
  rw [Barrier.names_stillRunning, List.filter_map, List.map_map]
  congr 1
  apply List.filter_congr
  intro n _
  rw [Bool.eq_iff_iff]
  simp [Node.statusAt_entrant_eq_running]

/-- A worker that has not ended by a last pass without a deadline never ends. -/
theorem time_eq_none_of_isLast (hlast : IsLast clock timeout (nodes.map Node.entrant) last)
    (hexpired : (Watch.ofClock clock timeout (nodes.map Node.entrant)).expired last = false)
    {n : Node T} (hn : n ∈ nodes) (hended : n.endedBy (clock.passTime last) = false) :
    n.time = none := by
  obtain ⟨-, hlatest⟩ := hlast.of_not_expired hexpired
  cases htime : n.time with
  | none => rfl
  | some time =>
      have hle : time ≤ latest (nodes.map Node.entrant) :=
        Barrier.le_latest (List.mem_map_of_mem hn) htime
      have hlt : clock.passTime last < time := by
        simpa [Node.endedBy, htime] using hended
      omega

/-- What is concluded from a verdict that suits the last pass is right. -/
theorem rightAt_conclude (hlast : IsLast clock timeout (nodes.map Node.entrant) last)
    {verdict : Verdict}
    (suits : verdict.Suits ((Watch.ofClock clock timeout (nodes.map Node.entrant)).status last)
      ((Watch.ofClock clock timeout (nodes.map Node.entrant)).expired last)
      (places ((nodes.map Node.entrant).map (·.name)))) :
    RightAt clock timeout nodes last
      (conclude ((nodes.map (workerOn Node.body)).map finished) verdict) := by
  cases verdict with
  | allSucceeded =>
      have hall := (Barrier.forall_places_iff clock timeout (nodes.map Node.entrant)
        (motive := (· = .succeeded)) last).mp suits
      rw [List.forall_mem_map] at hall
      have hended : ∀ n ∈ nodes, n.endedBy (clock.passTime last) = true := by
        intro n hn
        exact (Node.statusAt_entrant_eq_succeeded.mp (hall n hn)).1
      have succeeded : ∀ n ∈ nodes, ∃ v, n.body = .value v := by
        intro n hn
        exact (Node.statusAt_entrant_eq_succeeded.mp (hall n hn)).2
      exact ⟨hended, collected_of_succeeded succeeded⟩
  | failed f =>
      obtain ⟨e, he, hfailed⟩ := (Barrier.exists_places_iff clock timeout (nodes.map Node.entrant)
        (motive := (· = .failed f)) last).mp suits
      obtain ⟨n, hn, rfl⟩ := List.mem_map.mp he
      exact ⟨n, hn, Node.statusAt_entrant_eq_failed.mp hfailed⟩
  | timedOut running =>
      obtain ⟨hexpired, rfl, hne, hfailed⟩ := suits
      refine ⟨?_, by simpa using hne, names_stillRunning_entrant clock timeout nodes last,
        noneFailed_of_places hfailed⟩
      simp only [Watch.ofClock] at hexpired
      cases hdeadline : clock.deadline? timeout with
      | none => simp [hdeadline] at hexpired
      | some deadline => exact ⟨deadline, rfl, by simpa [hdeadline] using hexpired⟩
  | waiting running =>
      obtain ⟨hexpired, rfl, hne, hfailed⟩ := suits
      refine ⟨(hlast.of_not_expired hexpired).1, ?_, noneFailed_of_places hfailed⟩
      obtain ⟨place, hplace⟩ := List.exists_mem_of_ne_nil _ hne
      obtain ⟨e, he, hrunning⟩ := (Barrier.exists_places_iff clock timeout
        (nodes.map Node.entrant) (motive := (· = .running)) last).mp
          ⟨place, Barrier.mem_stillRunning.mp hplace⟩
      obtain ⟨n, hn, rfl⟩ := List.mem_map.mp he
      exact ⟨n, hn, time_eq_none_of_isLast hlast hexpired hn
        (Node.statusAt_entrant_eq_running.mp hrunning)⟩

end Suits

/-- A run over nodes whose names have no NUL reports what is right at the last pass of its wait. -/
theorem run_right (clock : Clock) (timeout : Duration) (nodes : List (Node T))
    (nul : ∀ n ∈ nodes, '\x00' ∉ n.name.toList) :
    ∃ last, IsLast clock timeout (nodes.map Node.entrant) last ∧
      RightAt clock timeout nodes last (run clock timeout nodes) := by
  obtain ⟨last, hlast⟩ := Barrier.exists_isLast clock timeout (nodes.map Node.entrant)
  refine ⟨last, hlast, ?_⟩
  rw [run, reportOn_eq nul]
  exact rightAt_conclude hlast hlast.suits

end Testbed.Worker.Parallel
