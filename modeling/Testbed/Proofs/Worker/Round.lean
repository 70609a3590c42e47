import Mathlib.Data.List.Forall2
import Testbed.Proofs.Worker.Lifecycle
import Testbed.Worker.Parallel

/-!
# A run on many nodes, step by step

The owner of a run starts the workers one by one, waits for all of them, and takes their values one
by one.  A worker that has been started makes its steps in between, at any time.  A thread comes to
one end only, however its steps fall, and a worker whose end has been published is there.
-/

namespace Testbed.Worker.Parallel

open Barrier (Scene Verdict)

universe u v

variable {T : Type u} {N : Type v}

/-! ## The end of a thread -/

/-- A worker that has come to its end. -/
def finished (w : Worker T) : Handle T := Handle.finish { worker := w }

/-- A worker at its end, of which the value has been taken. -/
def emptied (w : Worker T) : Handle T := (finished w).takeOutput.2

@[simp] theorem worker_finished (w : Worker T) : (finished w).worker = w := by
  simp [finished, Handle.finish]

@[simp] theorem worker_takeOutput (h : Handle T) : h.takeOutput.2.worker = h.worker := by
  rcases takeOutput_cases h with ⟨v, -, htake⟩ | ⟨-, htake⟩
  · rw [htake]
  · rw [htake]

theorem worker_emptied (w : Worker T) : (emptied w).worker = w := by
  simp [emptied]

/-- Nothing happens on a thread that has come to its end. -/
theorem advance_eq_self {h : Handle T} {outcome : Except Failure (Option T)}
    (hstage : h.stage = .finished outcome) : h.advance = h := by
  rw [Handle.advance, hstage]

theorem stage_of_ended {h : Handle T} (ended : h.status ≠ .running) :
    ∃ outcome, h.stage = .finished outcome := by
  cases hstage : h.stage with
  | finished outcome => exact ⟨outcome, rfl⟩
  | _ => simp [Handle.status, hstage] at ended

/-- A thread has at most four steps to make. -/
theorem stage_finished (w : Worker T) : ∃ outcome, (finished w).stage = .finished outcome := by
  have hadvance : ∀ h : Handle T, stepsLeft h.advance.stage ≤ stepsLeft h.stage - 1 :=
    fun h => (stepsTo_advance h).stepsLeft_le
  have hleft : stepsLeft (finished w).stage = 0 := by
    have h₁ := hadvance { worker := w }
    have h₂ := hadvance (Handle.advance { worker := w })
    have h₃ := hadvance (Handle.advance { worker := w }).advance
    have h₄ := hadvance (Handle.advance { worker := w }).advance.advance
    have h₀ : stepsLeft (Handle.stage { worker := w }) = 4 := rfl
    rw [finished, Handle.finish]
    omega
  cases hstage : (finished w).stage with
  | finished outcome => exact ⟨outcome, rfl⟩
  | _ => simp [hstage, stepsLeft] at hleft

theorem stage_emptied (w : Worker T) : ∃ outcome, (emptied w).stage = .finished outcome := by
  rw [emptied]
  rcases takeOutput_cases (finished w) with ⟨v, -, htake⟩ | ⟨-, htake⟩
  · exact ⟨.ok none, by rw [htake]⟩
  · rw [htake]
    exact stage_finished w

/-- A worker that has made some steps. -/
def Runs (w : Worker T) (h : Handle T) : Prop :=
  ∃ steps, h = Handle.advance^[steps] { worker := w }

theorem Runs.advance {w : Worker T} {h : Handle T} (runs : Runs w h) : Runs w h.advance := by
  obtain ⟨steps, rfl⟩ := runs
  exact ⟨steps + 1, (Function.iterate_succ_apply' _ _ _).symm⟩

theorem Runs.worker {w : Worker T} {h : Handle T} (runs : Runs w h) : h.worker = w := by
  obtain ⟨steps, rfl⟩ := runs
  induction steps with
  | zero => rfl
  | succ steps ih => rw [Function.iterate_succ_apply', Handle.worker_advance, ih]

/-- A worker that is found at its end is where its thread ends. -/
theorem Runs.eq_finished {w : Worker T} {h : Handle T} (runs : Runs w h)
    (ended : h.status ≠ .running) : h = finished w := by
  obtain ⟨outcome, hstage⟩ := stage_of_ended ended
  obtain ⟨last, hlast⟩ := stage_finished w
  obtain ⟨steps, rfl⟩ := runs
  have hfinish : finished w = Handle.advance^[4] { worker := w } := rfl
  rcases Nat.le_total steps 4 with hle | hle
  · obtain ⟨more, hmore⟩ := Nat.exists_eq_add_of_le' hle
    rw [hfinish, hmore, Function.iterate_add_apply,
      Function.iterate_fixed (advance_eq_self hstage)]
  · obtain ⟨more, rfl⟩ := Nat.exists_eq_add_of_le' hle
    rw [Function.iterate_add_apply, ← hfinish, Function.iterate_fixed (advance_eq_self hlast)]

/-- All workers have been started, and have made some steps. -/
def Manned (workers : List (Worker T)) (handles : List (Handle T)) : Prop :=
  List.Forall₂ Runs workers handles

section Manned

variable {workers : List (Worker T)} {handles : List (Handle T)}

theorem Manned.thread (manned : Manned workers handles) (worker : Nat) :
    Manned workers (handles.modify worker Handle.advance) := by
  induction manned generalizing worker with
  | nil => simp [Manned]
  | cons runs rest ih =>
      cases worker with
      | zero => exact .cons runs.advance rest
      | succ worker => exact .cons runs (ih worker)

theorem Manned.start (manned : Manned workers handles) (w : Worker T) :
    Manned (workers ++ [w]) (handles ++ [{ worker := w }]) :=
  List.rel_append manned (.cons ⟨0, rfl⟩ .nil)

theorem Manned.map_worker (manned : Manned workers handles) : handles.map (·.worker) = workers := by
  induction manned with
  | nil => rfl
  | cons runs _ ih => rw [List.map_cons, runs.worker, ih]

theorem Manned.runs (manned : Manned workers handles) {number : Nat} {h : Handle T}
    (hhandle : handles[number]? = some h) : ∃ w, workers[number]? = some w ∧ Runs w h := by
  induction manned generalizing number with
  | nil => simp at hhandle
  | @cons w _ _ _ runs _ ih =>
      cases number with
      | zero =>
          obtain rfl := Option.some.inj hhandle
          exact ⟨w, rfl, runs⟩
      | succ number => exact ih hhandle

/-- When all workers are found at their ends, they are where their threads end. -/
theorem Manned.eq_finished (manned : Manned workers handles)
    (ended : ∀ h ∈ handles, h.status ≠ .running) : handles = workers.map finished := by
  induction manned with
  | nil => rfl
  | cons runs _ ih =>
      rw [List.forall_mem_cons] at ended
      rw [List.map_cons, ← runs.eq_finished ended.1, ← ih ended.2]

end Manned

/-! ## The owner -/

/-- What the owner of a run does: it starts workers, waits for them, or takes their values from one
of some number on, or it has reported. -/
inductive Progress (T : Type u) where
  | starting (rest : List (Worker T))
  | waiting
  | taking (number : Nat) (taken : List (String × T))
  | reported (report : Report T)

/-- What the owner does after the verdict of the barrier. -/
def Progress.ofVerdict : Verdict → Progress T
  | .allSucceeded => .taking 0 []
  | .failed f => .reported (.failed (.failed f))
  | .timedOut running => .reported (.failed (.timedOut (running.map (·.name))))
  | .waiting _ => .reported .waiting

/-- A run: the workers that have been started with the barrier that waits for them, and what the
owner does. -/
structure Round (T : Type u) where
  scene : Scene T
  progress : Progress T

namespace Round

/-- The begin of a run of a target on nodes. -/
def begin [Named N] (target : N → Ending T) (nodes : List N) : Round T where
  scene := .begin []
  progress := .starting (nodes.map (workerOn target))

/-- What the run has come to, if it is over. -/
def report? (s : Round T) : Option (Report T) :=
  match s.progress with
  | .reported report => some report
  | _ => none

/-- The owner starts a worker. -/
def start (s : Round T) (w : Worker T) (rest : List (Worker T)) : Round T :=
  match w.start with
  | .ok h =>
    { scene := { s.scene with handles := s.scene.handles ++ [h] }, progress := .starting rest }
  | .error p => { s with progress := .reported (.panicked p) }

/-- The owner takes the value of a worker, or reports when it has been at all of them. -/
def take (s : Round T) (number : Nat) (taken : List (String × T)) : Round T :=
  match s.scene.handles[number]? with
  | some h =>
    { scene := { s.scene with handles := s.scene.handles.set number h.takeOutput.2 }
      progress := .taking (number + 1) (taken ++ (result? h).toList) }
  | none => { s with progress := .reported (.values (Table.ofList taken)) }

/-- The owner goes on with what it does. -/
def proceed (s : Round T) : Round T :=
  match s.progress with
  | .starting (w :: rest) => s.start w rest
  | .starting [] => { scene := .begin s.scene.handles, progress := .waiting }
  | .waiting =>
    match s.scene.phase with
    | .ended verdict => { s with progress := .ofVerdict verdict }
    | .looking _ | .asleep => { s with scene := s.scene.proceed }
  | .taking number taken => s.take number taken
  | .reported _ => s

/-- The owner wakes from a sleep and reads the clock. -/
def wake (deadline : Option Nat) (s : Round T) (now : Nat) : Round T :=
  match s.progress with
  | .waiting => { s with scene := s.scene.wake deadline now }
  | .starting _ | .taking _ _ | .reported _ => s

/-- What an action makes of a run. -/
def act (deadline : Option Nat) (s : Round T) : Barrier.Action → Round T
  | .thread worker => { s with scene := s.scene.thread worker }
  | .proceed => s.proceed
  | .wake now => s.wake deadline now

/-- What actions make of a run, one after the other. -/
def run (deadline : Option Nat) (s : Round T) (actions : List Barrier.Action) : Round T :=
  actions.foldl (act deadline) s

end Round

end Testbed.Worker.Parallel
