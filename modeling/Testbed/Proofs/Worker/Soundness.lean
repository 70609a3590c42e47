import Testbed.Proofs.Worker.Interleaving

/-!
# The scene computes the passes

A scene records all that the barrier has seen.  Any watch that agrees with the record makes `passes`
give the verdict of the scene, whatever it holds beyond: that is shown step by step, for `passes`
taken up in the middle of a pass.  Together with the invariant of the scene this says what every
verdict means, under every order of turns.
-/

namespace Testbed.Worker.Barrier

open Handle (Status)

universe u

variable {T : Type u}

/-! ## In the middle of a pass -/

/-- The verdict of `passes` taken up in the middle of a pass: some workers have been found running
in it, and others are still to be looked at. -/
def resume (watch : Watch) (limit pass : Nat) (revisited unvisited : List Place) : Verdict :=
  match sweep (watch.status pass) unvisited with
  | .error f => .failed f
  | .ok rest =>
    match revisited ++ rest with
    | [] => .allSucceeded
    | running =>
      if watch.expired pass then .timedOut running else passes watch limit (pass + 1) running

section Resume

variable {watch : Watch} {limit pass : Nat} {revisited unvisited : List Place} {place : Place}

theorem passes_eq_resume (queue : List Place) :
    passes watch (limit + 1) pass queue = resume watch limit pass [] queue := by
  unfold passes resume
  cases sweep (watch.status pass) queue with
  | error f => rfl
  | ok rest => cases rest <;> rfl

theorem resume_running (h : watch.status pass place.number = .running) :
    resume watch limit pass revisited (place :: unvisited) =
      resume watch limit pass (revisited ++ [place]) unvisited := by
  unfold resume
  simp only [sweep, h]
  cases sweep (watch.status pass) unvisited with
  | error f => rfl
  | ok rest => simp [Except.map]

theorem resume_succeeded (h : watch.status pass place.number = .succeeded) :
    resume watch limit pass revisited (place :: unvisited) =
      resume watch limit pass revisited unvisited := by
  simp only [resume, sweep, h]

theorem resume_failed {f : Failure} (h : watch.status pass place.number = .failed f) :
    resume watch limit pass revisited (place :: unvisited) = .failed f := by
  simp only [resume, sweep, h]

theorem resume_nil : resume watch limit pass [] [] = .allSucceeded :=
  rfl

/-- At the end of a pass that leaves some workers running, the clock decides. -/
theorem resume_ended (h : revisited ≠ []) :
    resume watch limit pass revisited [] =
      if watch.expired pass then .timedOut revisited
      else passes watch limit (pass + 1) revisited := by
  cases revisited with
  | nil => exact absurd rfl h
  | cons place rest => simp [resume, sweep]

end Resume

namespace Scene

/-! ## Watches that agree with a scene -/

/-- A watch shows what the barrier has seen. -/
structure Agrees (deadline : Option Nat) (s : Scene T) (watch : Watch) : Prop where
  seen : ∀ sighting ∈ s.sightings,
    watch.status sighting.pass sighting.place.number = sighting.status
  woken : ∀ pass now, s.wakes[pass]? = some now → watch.expired pass = isOver deadline now

/-- The watch made of what the barrier has seen. -/
def watch (deadline : Option Nat) (s : Scene T) : Watch where
  status pass worker :=
    match s.sightings.find? fun sighting =>
      sighting.pass = pass ∧ sighting.place.number = worker with
    | some sighting => sighting.status
    | none => .running
  expired pass :=
    match s.wakes[pass]? with
    | some now => isOver deadline now
    | none => false

/-- A place is known by its number. -/
theorem eq_of_number_eq {s : Scene T} {a b : Place} (ha : a ∈ s.places) (hb : b ∈ s.places)
    (h : a.number = b.number) : a = b := by
  have hname := mem_places.mp ha
  rw [h, mem_places.mp hb, Option.some.injEq] at hname
  cases a
  cases b
  simp_all

/-- What the barrier has seen is a watch. -/
theorem Faithful.agrees_watch {deadline : Option Nat} {s : Scene T} (h : s.Faithful) :
    s.Agrees deadline (s.watch deadline) where
  seen := by
    intro sighting hmem
    unfold watch
    dsimp only
    split
    case h_1 other hfound =>
        have hother := List.mem_of_find?_eq_some hfound
        have hsame := List.find?_some hfound
        simp only [decide_eq_true_eq] at hsame
        have hplace := eq_of_number_eq (h.known other hother) (h.known sighting hmem) hsame.2
        rw [h.unique other hother sighting hmem hsame.1 hplace]
    case h_2 hnone =>
        have hnot := List.find?_eq_none.mp hnone sighting hmem
        simp at hnot
  woken := by
    intro pass now hnow
    simp [watch, hnow]

section Earlier

variable {deadline : Option Nat} {s : Scene T} {watch : Watch}

theorem Agrees.of_note {place : Place} (h : (s.note place).Agrees deadline watch) :
    s.Agrees deadline watch where
  seen := fun sighting hmem => h.seen sighting (List.mem_append_left _ hmem)
  woken := h.woken

theorem Agrees.status_note {place : Place} (h : (s.note place).Agrees deadline watch) :
    watch.status s.pass place.number = s.status place.number :=
  h.seen ⟨s.pass, place, s.status place.number⟩ (by simp [note])

theorem Agrees.of_woken {now : Nat}
    (h : Agrees deadline { s with wakes := s.wakes ++ [now] } watch) : s.Agrees deadline watch where
  seen := h.seen
  woken := by
    intro pass time htime
    apply h.woken
    rw [List.getElem?_append_left (List.getElem?_eq_some_iff.mp htime).1]
    exact htime

theorem Agrees.expired {now : Nat}
    (h : Agrees deadline { s with wakes := s.wakes ++ [now] } watch)
    (hpass : s.wakes.length = s.pass) : watch.expired s.pass = isOver deadline now := by
  apply h.woken
  simp [← hpass]

end Earlier

/-! ## The passes follow the scene -/

/-- So far, `passes` does what the barrier has done. -/
structure Follows (deadline : Option Nat) (s : Scene T) : Prop where
  ongoing : (∀ verdict, s.phase ≠ .ended verdict) → ∀ watch, s.Agrees deadline watch → ∀ limit,
    passes watch (s.pass + 1 + limit) 0 s.places =
      resume watch limit s.pass s.revisited s.unvisited
  ended : ∀ verdict, s.phase = .ended verdict → ∀ watch, s.Agrees deadline watch → ∀ limit,
    passes watch (s.pass + 1 + limit) 0 s.places = verdict

/-- Before a look, `passes` is at the place at the front of the queue. -/
theorem Follows.look {deadline : Option Nat} {s : Scene T} (h : s.Follows deadline)
    (hphase : ∀ verdict, s.phase ≠ .ended verdict) {place : Place} {rest : List Place} {left : Nat}
    (front : s.Front place rest left) {watch : Watch} (hnote : (s.note place).Agrees deadline watch)
    (limit : Nat) :
    passes watch (s.pass + 1 + limit) 0 s.places =
      resume watch limit s.pass (rest.drop left) (place :: rest.take left) := by
  rw [← front.revisited, ← front.unvisited]
  exact h.ongoing hphase watch hnote.of_note limit

/-- Before the barrier wakes, `passes` is at the end of a pass. -/
theorem Follows.sleep {deadline : Option Nat} {s : Scene T} (h : s.Follows deadline)
    (hphase : s.phase = .asleep) {watch : Watch} {now : Nat}
    (hwoken : Agrees deadline { s with wakes := s.wakes ++ [now] } watch) (limit : Nat) :
    passes watch (s.pass + 1 + limit) 0 s.places = resume watch limit s.pass s.queue [] := by
  have hpasses := h.ongoing (by simp [hphase]) watch hwoken.of_woken limit
  have hleft : s.left = 0 := by simp [Scene.left, hphase]
  rw [revisited, unvisited, hleft, List.drop_zero, List.take_zero] at hpasses
  exact hpasses

theorem Follows.begin (deadline : Option Nat) (handles : List (Handle T)) :
    (Scene.begin handles).Follows deadline where
  ongoing := by
    intro _ watch _ limit
    have hlength : (Barrier.places (handles.map (·.worker.name))).length = handles.length := by
      simp [Barrier.places]
    have hpass : (Scene.begin handles).pass + 1 + limit = limit + 1 := Nat.add_comm _ _
    rw [hpass]
    simp [Scene.begin, Scene.places, revisited, unvisited, left, passes_eq_resume, ← hlength]
  ended := by simp [Scene.begin]

theorem Follows.thread {deadline : Option Nat} {s : Scene T} (h : s.Follows deadline)
    (worker : Nat) : (s.thread worker).Follows deadline where
  ongoing := by
    intro hphase watch hagrees limit
    rw [places_thread]
    exact h.ongoing hphase watch ⟨hagrees.seen, hagrees.woken⟩ limit
  ended := by
    intro verdict hphase watch hagrees limit
    rw [places_thread]
    exact h.ended verdict hphase watch ⟨hagrees.seen, hagrees.woken⟩ limit

theorem Follows.proceed {deadline : Option Nat} {s : Scene T} (h : s.Follows deadline)
    (sound : s.Sound deadline) : s.proceed.Follows deadline := by
  have hstep := s.proceedsTo_proceed
  generalize s.proceed = next at hstep
  cases hstep with
  | idle => exact h
  | finished hphase hqueue =>
      have hpasses := h.ongoing (by simp [hphase])
      rw [revisited, unvisited, hqueue, List.take_nil, List.drop_nil] at hpasses
      refine ⟨by simp, ?_⟩
      rintro verdict ⟨⟩ watch hagrees limit
      rw [← resume_nil]
      exact hpasses watch ⟨hagrees.seen, hagrees.woken⟩ limit
  | paused hphase hqueue =>
      have hpasses := h.ongoing (by simp [hphase])
      have hleft : s.left = 0 := by simp [Scene.left, hphase]
      rw [revisited, unvisited, hleft] at hpasses
      exact ⟨fun _ watch hagrees => hpasses watch ⟨hagrees.seen, hagrees.woken⟩, by simp⟩
  | @running place rest left hphase hqueue hstatus =>
      have hongoing := sound.ongoing (by simp [hphase])
      have front := hongoing.front hphase hqueue
      refine ⟨fun _ watch hagrees limit => ?_, by simp⟩
      have hnote : (s.note place).Agrees deadline watch := ⟨hagrees.seen, hagrees.woken⟩
      have hlook := h.look (by simp [hphase]) front hnote limit
      rw [resume_running (hnote.status_note.trans hstatus)] at hlook
      rw [revisited, unvisited, Scene.left, List.drop_append_of_le_length front.left_le,
        List.take_append_of_le_length front.left_le]
      exact hlook
  | @succeeded place rest left hphase hqueue hstatus =>
      have hongoing := sound.ongoing (by simp [hphase])
      have front := hongoing.front hphase hqueue
      refine ⟨fun _ watch hagrees limit => ?_, by simp⟩
      have hnote : (s.note place).Agrees deadline watch := ⟨hagrees.seen, hagrees.woken⟩
      have hlook := h.look (by simp [hphase]) front hnote limit
      rw [resume_succeeded (hnote.status_note.trans hstatus)] at hlook
      exact hlook
  | @failed place rest left f hphase hqueue hstatus =>
      have hongoing := sound.ongoing (by simp [hphase])
      have front := hongoing.front hphase hqueue
      refine ⟨by simp, ?_⟩
      rintro verdict ⟨⟩ watch hagrees limit
      have hnote : (s.note place).Agrees deadline watch := ⟨hagrees.seen, hagrees.woken⟩
      have hlook := h.look (by simp [hphase]) front hnote limit
      rw [resume_failed (hnote.status_note.trans hstatus)] at hlook
      exact hlook

theorem Follows.wake {deadline : Option Nat} {s : Scene T} (h : s.Follows deadline)
    (sound : s.Sound deadline) (now : Nat) : (s.wake deadline now).Follows deadline := by
  have hstep := s.wakesTo_wake deadline now
  generalize s.wake deadline now = next at hstep
  cases hstep with
  | idle => exact h
  | late hphase hlate =>
      have hongoing := sound.ongoing (by simp [hphase])
      refine ⟨by simp, ?_⟩
      rintro verdict ⟨⟩ watch hagrees limit
      have hwoken : Agrees deadline { s with wakes := s.wakes ++ [now] } watch :=
        ⟨hagrees.seen, hagrees.woken⟩
      have hend := h.sleep hphase hwoken limit
      rw [resume_ended (hongoing.nonempty hphase), hwoken.expired hongoing.wakes, hlate] at hend
      exact hend
  | again hphase hearly =>
      have hongoing := sound.ongoing (by simp [hphase])
      refine ⟨fun _ watch hagrees limit => ?_, by simp⟩
      have hwoken : Agrees deadline { s with wakes := s.wakes ++ [now] } watch :=
        ⟨hagrees.seen, hagrees.woken⟩
      -- The new pass takes one of the passes that are still allowed.
      have hend := h.sleep hphase hwoken (limit + 1)
      rw [resume_ended (hongoing.nonempty hphase), hwoken.expired hongoing.wakes, hearly,
        if_neg (by simp), passes_eq_resume, ← Nat.add_assoc, Nat.add_right_comm _ limit] at hend
      rw [revisited, unvisited, Scene.left, List.drop_length, List.take_length]
      exact hend

theorem Follows.run {deadline : Option Nat} {s : Scene T} (h : s.Follows deadline)
    (sound : s.Sound deadline) (actions : List Action) :
    (s.run deadline actions).Follows deadline := by
  induction actions generalizing s with
  | nil => exact h
  | cons action rest ih =>
      cases action with
      | thread worker => exact ih (h.thread worker) (sound.thread worker)
      | proceed => exact ih (h.proceed sound) sound.proceed
      | wake now => exact ih (h.wake sound now) (sound.wake now)

/-! ## Errors -/

/-- What is known of a scene in which a wait returns an error or none. -/
def Returned (deadline : Option Nat) (s : Scene T) : Option Error → Prop
  | none => ∀ place ∈ s.places, s.status place.number = .succeeded
  | some (.failed f) =>
    (∃ place ∈ s.places, s.status place.number = .failed f) ∧
      ∀ sighting ∈ s.sightings, ∀ g, sighting.status = .failed g → g = f
  | some (.timedOut names) =>
    (∃ time now, deadline = some time ∧ s.wakes.getLast? = some now ∧ time < now) ∧
      names ≠ [] ∧
      names = (s.places.filter fun place => ⟨s.pass, place, .running⟩ ∈ s.sightings).map (·.name)

theorem Justified.returned {deadline : Option Nat} {s : Scene T} {verdict : Verdict}
    (h : s.Justified deadline verdict) : s.Returned deadline verdict.error? := by
  cases verdict with
  | allSucceeded => exact h
  | failed f =>
      obtain ⟨earlier, place, hseen, hplace, hstatus, hearlier, -⟩ := h
      refine ⟨⟨place, hplace, hstatus⟩, ?_⟩
      intro sighting hmem g hfailed
      rw [hseen, List.mem_append, List.mem_singleton] at hmem
      rcases hmem with hmem | rfl
      · exact absurd hfailed (hearlier sighting hmem g)
      · cases hfailed
        rfl
  | timedOut running =>
      obtain ⟨hover, hne, hrunning, -⟩ := h
      exact ⟨hover, by simpa using hne, congrArg _ hrunning⟩
  | waiting running => exact h.elim

end Scene

/-- Whatever turns the threads of the workers and the barrier take, every worker is where its own
thread has brought it, and a verdict is the one that `passes` gives for what the barrier has seen,
and is justified by it. -/
theorem verdict_sound (clock : Clock) (timeout : Duration) (handles : List (Handle T))
    (actions : List Action) :
    let deadline := clock.deadline? timeout
    let s := (Scene.begin handles).run deadline actions
    (∀ worker, s.handles[worker]? =
        handles[worker]?.map (Handle.advance^[actions.count (.thread worker)])) ∧
      s.places = places (handles.map (·.worker.name)) ∧
      ∀ verdict, s.phase = .ended verdict →
        passes (s.watch deadline) (s.pass + 1) 0 s.places = verdict ∧
          s.Justified deadline verdict := by
  intro deadline s
  have sound : s.Sound deadline := (Scene.Sound.begin deadline handles).run actions
  have follows : s.Follows deadline :=
    (Scene.Follows.begin deadline handles).run (Scene.Sound.begin deadline handles) actions
  refine ⟨Scene.handles_run deadline (Scene.begin handles) actions,
    Scene.places_run deadline (Scene.begin handles) actions, ?_⟩
  intro verdict hphase
  refine ⟨?_, sound.justified verdict hphase⟩
  exact follows.ended verdict hphase _ sound.faithful.agrees_watch 0

/-- One worker succeeds between two looks at it and another one never does, so the wait for them
times out in its second pass. -/
theorem verdict_sound_second_pass :
    let handles : List (Handle Unit) :=
      [{ worker := { name := "a", body := .value () } },
        { worker := { name := "b", body := .value () } }]
    let advances := List.replicate 4 (Action.thread 0)
    let looks := List.replicate 3 Action.proceed
    let s := (Scene.begin handles).run (some 150000000)
      (looks ++ [.wake 100000000] ++ advances ++ looks ++ [.wake 200000000])
    s.phase = .ended (.timedOut [⟨1, "b"⟩]) ∧
      s.Justified (some 150000000) (.timedOut [⟨1, "b"⟩]) := by
  intro handles advances looks s
  have hphase : s.phase = .ended (.timedOut [⟨1, "b"⟩]) := rfl
  refine ⟨hphase, ?_⟩
  exact ((verdict_sound ⟨0, fun _ => 0⟩ (.ofMilliseconds 150) handles _).2.2 _ hphase).2

/-- Whatever turns are taken, a wait returns no error only if all workers have succeeded.  A failure
that it returns is the only one that it has seen, and is there; and if the time is over it returns
the names of those found running in the last pass, in the order of the list. -/
theorem error?_of_ended (clock : Clock) (timeout : Duration) (handles : List (Handle T))
    (actions : List Action) :
    let deadline := clock.deadline? timeout
    let s := (Scene.begin handles).run deadline actions
    ∀ verdict, s.phase = .ended verdict → s.Returned deadline verdict.error? := by
  intro deadline s verdict hphase
  have sound : s.Sound deadline := (Scene.Sound.begin deadline handles).run actions
  exact (sound.justified verdict hphase).returned

end Testbed.Worker.Barrier
