import Testbed.Proofs.Worker.Interleaving

/-!
# What a barrier last found

A worker is in the queue of a barrier as long as it was running when the barrier last looked at it,
or has not been looked at.  So a verdict can be told by the last looks: a failure is what was found
last of some worker, and a timeout names the workers that were last found running.
-/

namespace Testbed.Worker.Barrier

open Handle (Status)

universe u

variable {T : Type u}

/-- What a verdict says of some workers, of which each was last found in some way. -/
def Verdict.Told (lastFound? : Place → Option Status) (places : List Place) : Verdict → Prop
  | .allSucceeded => ∀ place ∈ places, lastFound? place = some .succeeded
  | .failed f => ∃ place ∈ places, lastFound? place = some (.failed f)
  | .timedOut running =>
    running ≠ [] ∧ running = places.filter fun place => lastFound? place = some .running
  | .waiting _ => False

namespace Scene

/-- What the barrier found when it last looked at a worker. -/
def lastFound? (s : Scene T) (place : Place) : Option Status :=
  (s.sightings.reverse.find? fun sighting => sighting.place = place).map (·.status)

theorem lastFound?_note (s : Scene T) (place other : Place) :
    (s.note place).lastFound? other =
      if place = other then some (s.status place.number) else s.lastFound? other := by
  by_cases hsame : place = other
  · simp [lastFound?, note, hsame]
  · simp [lastFound?, note, hsame]

theorem lastFound?_eq_none {s : Scene T} {place : Place} :
    s.lastFound? place = none ↔ ∀ sighting ∈ s.sightings, sighting.place ≠ place := by
  simp [lastFound?]

/-- What was last found of a worker was seen. -/
theorem exists_of_lastFound? {s : Scene T} {place : Place} {status : Status}
    (h : s.lastFound? place = some status) :
    ∃ sighting ∈ s.sightings, sighting.place = place ∧ sighting.status = status := by
  rw [lastFound?, Option.map_eq_some_iff] at h
  obtain ⟨sighting, hfind, hstatus⟩ := h
  have hmem := List.mem_reverse.mp (List.mem_of_find?_eq_some hfind)
  have hplace := List.find?_some hfind
  exact ⟨sighting, hmem, of_decide_eq_true hplace, hstatus⟩

/-- A worker that was last found at its end is there. -/
theorem Faithful.status_of_lastFound? {s : Scene T} (h : s.Faithful) {place : Place}
    {status : Status} (found : s.lastFound? place = some status) (ended : status ≠ .running) :
    s.status place.number = status := by
  obtain ⟨sighting, hmem, rfl, rfl⟩ := exists_of_lastFound? found
  exact h.lasting sighting hmem ended

/-! ## The queue and the last looks -/

/-- The queue holds the workers that were running when the barrier last looked at them, and those
it has not looked at.  Success means that it is empty, and a timeout is about those in it. -/
structure Tracked (s : Scene T) : Prop where
  mem_queue : ∀ place ∈ s.places,
    (place ∈ s.queue ↔ ∀ status, s.lastFound? place = some status → status = .running)
  allSucceeded : s.phase = .ended .allSucceeded → s.queue = []
  timedOut : ∀ running, s.phase = .ended (.timedOut running) → running = s.queue

theorem Tracked.begin (handles : List (Handle T)) : (Scene.begin handles).Tracked where
  mem_queue := by
    intro place hplace
    refine iff_of_true hplace ?_
    simp [Scene.begin, lastFound?]
  allSucceeded := by simp [Scene.begin]
  timedOut := by simp [Scene.begin]

theorem Tracked.thread {s : Scene T} (h : s.Tracked) (worker : Nat) :
    (s.thread worker).Tracked where
  mem_queue := by
    rw [places_thread]
    exact h.mem_queue
  allSucceeded := h.allSucceeded
  timedOut := h.timedOut

/-- A look changes what is told of the worker at the front of the queue, and of no other. -/
theorem Tracked.look {s : Scene T} (h : s.Tracked) {place : Place} {rest queue : List Place}
    (hqueue : s.queue = place :: rest)
    (others : ∀ other, other ≠ place → (other ∈ queue ↔ other ∈ rest))
    (front : place ∈ queue ↔ s.status place.number = .running) {phase : Phase}
    (unsuccessful : phase ≠ .ended .allSucceeded)
    (untimed : ∀ running, phase ≠ .ended (.timedOut running)) :
    Tracked { s.note place with queue, phase } where
  mem_queue := by
    intro other hother
    change other ∈ queue ↔ ∀ status, (s.note place).lastFound? other = some status → _
    rw [lastFound?_note]
    by_cases hsame : place = other
    · subst hsame
      simp [front]
    · have hold := h.mem_queue other hother
      rw [hqueue, List.mem_cons, or_iff_right (Ne.symm hsame)] at hold
      rw [others other (Ne.symm hsame), hold, if_neg hsame]
  allSucceeded := fun hphase => absurd hphase unsuccessful
  timedOut := fun running hphase => absurd hphase (untimed running)

theorem Tracked.proceed {deadline : Option Nat} {s : Scene T} (h : s.Tracked)
    (sound : s.Sound deadline) : s.proceed.Tracked := by
  have hstep := s.proceedsTo_proceed
  generalize s.proceed = next at hstep
  cases hstep with
  | idle => exact h
  | finished hphase hqueue => exact ⟨h.mem_queue, fun _ => hqueue, by simp⟩
  | paused => exact ⟨h.mem_queue, by simp, by simp⟩
  | @running place rest left hphase hqueue hstatus =>
      refine h.look hqueue (fun other hother => ?_) ?_ (by simp) (by simp)
      · simp [hother]
      · simp [hstatus]
  | @succeeded place rest left hphase hqueue hstatus =>
      have ongoing := sound.ongoing (by simp [hphase])
      have hnot := ongoing.front_not_mem (ongoing.front hphase hqueue)
      exact h.look hqueue (fun _ _ => Iff.rfl) (by simp [hnot, hstatus]) (by simp) (by simp)
  | @failed place rest left f hphase hqueue hstatus =>
      have ongoing := sound.ongoing (by simp [hphase])
      have hnot := ongoing.front_not_mem (ongoing.front hphase hqueue)
      exact h.look hqueue (fun _ _ => Iff.rfl) (by simp [hnot, hstatus]) (by simp) (by simp)

theorem Tracked.wake {s : Scene T} (h : s.Tracked) (deadline : Option Nat) (now : Nat) :
    (s.wake deadline now).Tracked := by
  have hstep := s.wakesTo_wake deadline now
  generalize s.wake deadline now = next at hstep
  cases hstep with
  | idle => exact h
  | late =>
      refine ⟨h.mem_queue, by simp, ?_⟩
      rintro running ⟨⟩
      rfl
  | again => exact ⟨h.mem_queue, by simp, by simp⟩

/-! ## Verdicts and the last looks -/

/-- The barrier tells what it found last. -/
theorem Tracked.told {deadline : Option Nat} {s : Scene T} (h : s.Tracked)
    (sound : s.Sound deadline) {verdict : Verdict} (hphase : s.phase = .ended verdict) :
    verdict.Told s.lastFound? s.places := by
  have justified := sound.justified verdict hphase
  cases verdict with
  | allSucceeded =>
      intro place hplace
      have hqueue := h.mem_queue place hplace
      rw [h.allSucceeded hphase, iff_false_left List.not_mem_nil] at hqueue
      push Not at hqueue
      obtain ⟨status, hlast, hended⟩ := hqueue
      rw [hlast, ← sound.faithful.status_of_lastFound? hlast hended, justified place hplace]
  | failed f =>
      obtain ⟨earlier, place, hseen, hplace, -⟩ := justified
      exact ⟨place, hplace, by simp [lastFound?, hseen]⟩
  | timedOut running =>
      obtain ⟨-, hne, hrunning, -⟩ := justified
      refine ⟨hne, hrunning.trans (List.filter_congr fun place hplace => ?_)⟩
      have hqueue := h.mem_queue place hplace
      rw [← h.timedOut running hphase, hrunning, List.mem_filter, decide_eq_true_eq,
        and_iff_right hplace] at hqueue
      rw [decide_eq_decide, hqueue]
      cases hlast : s.lastFound? place with
      | some status => simp
      | none =>
          -- A worker that has not been looked at was not found running in this pass.
          have hunseen := lastFound?_eq_none.mp hlast
          simp only [reduceCtorEq, false_implies, implies_true, iff_false, not_true_eq_false]
          exact hunseen ⟨s.pass, place, .running⟩ (hqueue.mpr (by simp [hlast])) rfl
  | waiting running => exact justified

end Scene

end Testbed.Worker.Barrier
