import Mathlib.Logic.Function.Iterate
import Testbed.Worker.Barrier

/-!
# Workers and a barrier, step by step

A scene is a list of workers on their threads together with a barrier that waits for them.  The
threads and the barrier take turns in any order: a thread makes one step, the barrier looks at the
worker at the front of its queue, and after a sleep it wakes and reads the clock.  The queue
rotates: a worker found running goes to its back.  A scene also keeps what the barrier has seen so
far.
-/

namespace Testbed.Worker.Handle

universe u

variable {T : Type u}

@[simp] theorem worker_advance (h : Handle T) : h.advance.worker = h.worker := by
  unfold advance
  repeat' split
  all_goals rfl

/-- A worker that has come to its end is found so ever after. -/
theorem status_advance {h : Handle T} (ended : h.status ≠ .running) :
    h.advance.status = h.status := by
  unfold status at ended
  split at ended
  case h_1 outcome hstage => simp [advance, hstage, status]
  case h_2 f hstage => simp [advance, hstage, status]
  case h_3 => exact absurd rfl ended

end Testbed.Worker.Handle

namespace Testbed.Worker.Barrier

open Handle (Status)

universe u

variable {T : Type u}

/-- What the barrier is doing: it still has some workers to look at in its pass, it sleeps between
two passes, or it has given its verdict. -/
inductive Phase where
  | looking (left : Nat)
  | asleep
  | ended (verdict : Verdict)

/-- One look at a worker: in which pass, at which one, and what was found. -/
structure Sighting where
  pass : Nat
  place : Place
  status : Status
  deriving DecidableEq

/-- Workers, and a barrier that waits for them. -/
structure Scene (T : Type u) where
  handles : List (Handle T)
  queue : List Place
  phase : Phase
  pass : Nat := 0
  /-- What the barrier has found, in order. -/
  sightings : List Sighting := []
  /-- What the clock has shown after each sleep, in order. -/
  wakes : List Nat := []

/-- What can happen next: the thread of a worker makes a step, the barrier goes on with its pass, or
it wakes and the clock shows a time. -/
inductive Action where
  | thread (worker : Nat)
  | proceed
  | wake (now : Nat)
  deriving DecidableEq

/-- Whether a deadline is over. -/
def isOver (deadline : Option Nat) (now : Nat) : Bool :=
  match deadline with
  | some time => time < now
  | none => false

namespace Scene

/-- The places of the workers of a scene. -/
def places (s : Scene T) : List Place :=
  Barrier.places (s.handles.map (·.worker.name))

/-- A barrier that begins to wait for workers, whatever they have done so far. -/
def begin (handles : List (Handle T)) : Scene T where
  handles
  queue := Barrier.places (handles.map (·.worker.name))
  phase := .looking handles.length

/-- What can be found of a worker now. -/
def status (s : Scene T) (worker : Nat) : Status :=
  match s.handles[worker]? with
  | some h => h.status
  | none => .running

/-- The thread of a worker makes a step. -/
def thread (s : Scene T) (worker : Nat) : Scene T :=
  { s with handles := s.handles.modify worker Handle.advance }

/-- The barrier notes what it has found of the worker at the front of its queue. -/
def note (s : Scene T) (place : Place) : Scene T :=
  { s with sightings := s.sightings ++ [⟨s.pass, place, s.status place.number⟩] }

/-- The barrier looks at the worker at the front of its queue, or comes to the end of its pass. -/
def proceed (s : Scene T) : Scene T :=
  match s.phase, s.queue with
  | .looking (left + 1), place :: rest =>
    match s.status place.number with
    | .running => { s.note place with queue := rest ++ [place], phase := .looking left }
    | .succeeded => { s.note place with queue := rest, phase := .looking left }
    | .failed f => { s.note place with queue := rest, phase := .ended (.failed f) }
  | .looking _, [] => { s with phase := .ended .allSucceeded }
  | .looking 0, _ :: _ => { s with phase := .asleep }
  | .asleep, _ => s
  | .ended _, _ => s

/-- The barrier wakes and reads the clock. -/
def wake (deadline : Option Nat) (s : Scene T) (now : Nat) : Scene T :=
  match s.phase with
  | .asleep =>
    if isOver deadline now then
      { s with wakes := s.wakes ++ [now], phase := .ended (.timedOut s.queue) }
    else
      { s with wakes := s.wakes ++ [now], phase := .looking s.queue.length, pass := s.pass + 1 }
  | .looking _ => s
  | .ended _ => s

/-- What going on comes to, case by case. -/
inductive ProceedsTo (s : Scene T) : Scene T → Prop
  | idle (phase : ∀ left, s.phase ≠ .looking left) : ProceedsTo s s
  | finished {left : Nat} (phase : s.phase = .looking left) (queue : s.queue = []) :
      ProceedsTo s { s with phase := .ended .allSucceeded }
  | paused (phase : s.phase = .looking 0) (queue : s.queue ≠ []) :
      ProceedsTo s { s with phase := .asleep }
  | running {place : Place} {rest : List Place} {left : Nat}
      (phase : s.phase = .looking (left + 1)) (queue : s.queue = place :: rest)
      (status : s.status place.number = .running) :
      ProceedsTo s { s.note place with queue := rest ++ [place], phase := .looking left }
  | succeeded {place : Place} {rest : List Place} {left : Nat}
      (phase : s.phase = .looking (left + 1)) (queue : s.queue = place :: rest)
      (status : s.status place.number = .succeeded) :
      ProceedsTo s { s.note place with queue := rest, phase := .looking left }
  | failed {place : Place} {rest : List Place} {left : Nat} {f : Failure}
      (phase : s.phase = .looking (left + 1)) (queue : s.queue = place :: rest)
      (status : s.status place.number = .failed f) :
      ProceedsTo s { s.note place with queue := rest, phase := .ended (.failed f) }

theorem proceedsTo_proceed (s : Scene T) : s.ProceedsTo s.proceed := by
  unfold proceed
  split
  case h_1 left place rest hphase hqueue =>
      split
      case h_1 hstatus => exact .running hphase hqueue hstatus
      case h_2 hstatus => exact .succeeded hphase hqueue hstatus
      case h_3 hstatus => exact .failed hphase hqueue hstatus
  case h_2 hphase hqueue => exact .finished hphase hqueue
  case h_3 hphase hqueue => exact .paused hphase (by simp [hqueue])
  case h_4 hphase => exact .idle (by simp [hphase])
  case h_5 hphase => exact .idle (by simp [hphase])

/-- What waking comes to, case by case. -/
inductive WakesTo (deadline : Option Nat) (now : Nat) (s : Scene T) : Scene T → Prop
  | idle (phase : s.phase ≠ .asleep) : WakesTo deadline now s s
  | late (phase : s.phase = .asleep) (late : isOver deadline now = true) :
      WakesTo deadline now s
        { s with wakes := s.wakes ++ [now], phase := .ended (.timedOut s.queue) }
  | again (phase : s.phase = .asleep) (early : isOver deadline now = false) :
      WakesTo deadline now s
        { s with wakes := s.wakes ++ [now], phase := .looking s.queue.length, pass := s.pass + 1 }

theorem wakesTo_wake (deadline : Option Nat) (s : Scene T) (now : Nat) :
    s.WakesTo deadline now (s.wake deadline now) := by
  unfold wake
  split
  case h_1 hphase =>
      split
      case isTrue hlate => exact .late hphase hlate
      case isFalse hearly => exact .again hphase (Bool.eq_false_iff.mpr hearly)
  case h_2 hphase => exact .idle (by simp [hphase])
  case h_3 hphase => exact .idle (by simp [hphase])

/-- What an action makes of a scene. -/
def act (deadline : Option Nat) (s : Scene T) : Action → Scene T
  | .thread worker => s.thread worker
  | .proceed => s.proceed
  | .wake now => s.wake deadline now

/-- What actions make of a scene, one after the other. -/
def run (deadline : Option Nat) (s : Scene T) (actions : List Action) : Scene T :=
  actions.foldl (act deadline) s

/-! ## What the barrier leaves alone -/

@[simp] theorem handles_proceed (s : Scene T) : s.proceed.handles = s.handles := by
  unfold proceed
  repeat' split
  all_goals rfl

@[simp] theorem handles_wake (deadline : Option Nat) (s : Scene T) (now : Nat) :
    (s.wake deadline now).handles = s.handles := by
  unfold wake
  repeat' split
  all_goals rfl

@[simp] theorem places_act (deadline : Option Nat) (s : Scene T) (action : Action) :
    (s.act deadline action).places = s.places := by
  cases action with
  | thread worker =>
      have names : (s.handles.modify worker Handle.advance).map (·.worker.name) =
          s.handles.map (·.worker.name) := by
        apply List.ext_getElem?
        intro i
        simp only [List.getElem?_map, List.getElem?_modify]
        cases s.handles[i]? with
        | none => rfl
        | some h => by_cases hi : worker = i <;> simp [hi]
      simp [act, thread, places, names]
  | proceed => simp [act, places]
  | wake now => simp [act, places]

@[simp] theorem places_run (deadline : Option Nat) (s : Scene T) (actions : List Action) :
    (s.run deadline actions).places = s.places := by
  induction actions generalizing s with
  | nil => rfl
  | cons action rest ih => exact (ih _).trans (places_act deadline s action)

/-- A worker is where its own thread has brought it: the barrier changes no worker. -/
theorem handles_run (deadline : Option Nat) (s : Scene T) (actions : List Action) (worker : Nat) :
    (s.run deadline actions).handles[worker]? =
      s.handles[worker]?.map (Handle.advance^[actions.count (.thread worker)]) := by
  induction actions generalizing s with
  | nil => simp [run]
  | cons action rest ih =>
      have hrest : s.run deadline (action :: rest) = (s.act deadline action).run deadline rest :=
        rfl
      rw [hrest, ih]
      cases action with
      | thread other =>
          by_cases hother : other = worker
          · subst hother
            simp [act, thread, Function.iterate_succ, Function.comp_def]
          · simp [act, thread, hother]
      | proceed => simp [act]
      | wake now => simp [act]

/-! ## What is found stays so -/

theorem status_thread {s : Scene T} {worker : Nat} (ended : s.status worker ≠ .running)
    (other : Nat) : (s.thread other).status worker = s.status worker := by
  unfold status at ended ⊢
  rw [thread, List.getElem?_modify]
  cases hworker : s.handles[worker]? with
  | none => simp
  | some h =>
      rw [hworker] at ended
      by_cases hother : other = worker
      · simpa [hother] using Handle.status_advance ended
      · simp [hother]

end Scene

end Testbed.Worker.Barrier
