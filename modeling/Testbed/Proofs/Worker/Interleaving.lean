import Mathlib.Data.List.Perm.Subperm
import Testbed.Proofs.Worker.Passes
import Testbed.Proofs.Worker.Scene

/-!
# Verdicts under every interleaving

Whatever turns the threads and the barrier take, a verdict says the truth about the workers:
success of all, a failure that one of them has published, or exactly those still running when they
were last looked at.  The invariant splits the queue into the workers not looked at in the current
pass and, behind them, those found running in it; put the other way round, they stand in the order
of the list.

Whatever the barrier sees, its verdict is the one that `passes` gives for what was seen.
-/

namespace Testbed.Worker.Barrier

open Handle (Status)

universe u

variable {T : Type u}

namespace Scene

/-! ## The invariant -/

/-- How many workers are still to be looked at in the current pass. -/
def left (s : Scene T) : Nat :=
  match s.phase with
  | .looking left => left
  | .asleep => 0
  | .ended _ => 0

/-- The places not looked at in the current pass. -/
def unvisited (s : Scene T) : List Place := s.queue.take s.left

/-- The places found running in the current pass. -/
def revisited (s : Scene T) : List Place := s.queue.drop s.left

/-- What has been seen was seen of the workers, each at most once in a pass, and an end that was
seen is still there. -/
structure Faithful (s : Scene T) : Prop where
  known : ∀ sighting ∈ s.sightings, sighting.place ∈ s.places
  past : ∀ sighting ∈ s.sightings, sighting.pass ≤ s.pass
  lasting : ∀ sighting ∈ s.sightings, sighting.status ≠ .running →
    s.status sighting.place.number = sighting.status
  unique : ∀ a ∈ s.sightings, ∀ b ∈ s.sightings, a.pass = b.pass → a.place = b.place → a = b

/-- The barrier is on its way, and no worker is lost or doubled. -/
structure Ongoing (s : Scene T) : Prop where
  left_le : s.left ≤ s.queue.length
  ordered : (s.revisited ++ s.unvisited).Sublist s.places
  unseen : ∀ sighting ∈ s.sightings, sighting.pass = s.pass → sighting.place ∉ s.unvisited
  running : ∀ place, ⟨s.pass, place, .running⟩ ∈ s.sightings ↔ place ∈ s.revisited
  consumed : ∀ place ∈ s.places, place ∉ s.queue →
    ∃ sighting ∈ s.sightings, sighting.place = place ∧ sighting.status = .succeeded
  unfailed : ∀ sighting ∈ s.sightings, ∀ f, sighting.status ≠ .failed f
  wakes : s.wakes.length = s.pass
  nonempty : s.phase = .asleep → s.queue ≠ []

/-- What a verdict says of the scene it is given in. -/
def Justified (deadline : Option Nat) (s : Scene T) : Verdict → Prop
  | .allSucceeded => ∀ place ∈ s.places, s.status place.number = .succeeded
  | .failed f =>
    ∃ earlier place, s.sightings = earlier ++ [⟨s.pass, place, .failed f⟩] ∧
      place ∈ s.places ∧ s.status place.number = .failed f ∧
      (∀ sighting ∈ earlier, ∀ g, sighting.status ≠ .failed g) ∧
      ∀ other ∈ s.places, other.number < place.number →
        ∃ sighting ∈ earlier, sighting.place = other ∧
          (sighting.pass = s.pass ∧ sighting.status = .running ∨
            sighting.pass ≤ s.pass ∧ sighting.status = .succeeded)
  | .timedOut running =>
    (∃ time now, deadline = some time ∧ s.wakes.getLast? = some now ∧ time < now) ∧
      running ≠ [] ∧
      running = s.places.filter (fun place => ⟨s.pass, place, .running⟩ ∈ s.sightings) ∧
      ∀ place ∈ s.places, place ∉ running → s.status place.number = .succeeded
  | .waiting _ => False

/-- What holds of a scene at any time. -/
structure Sound (deadline : Option Nat) (s : Scene T) : Prop where
  faithful : s.Faithful
  ongoing : (∀ verdict, s.phase ≠ .ended verdict) → s.Ongoing
  justified : ∀ verdict, s.phase = .ended verdict → s.Justified deadline verdict

/-! ## Steps of a thread -/

theorem places_thread (s : Scene T) (worker : Nat) : (s.thread worker).places = s.places :=
  places_act none s (.thread worker)

theorem Faithful.thread {s : Scene T} (h : s.Faithful) (worker : Nat) :
    (s.thread worker).Faithful where
  known := by
    rw [places_thread]
    exact h.known
  past := h.past
  lasting := by
    intro sighting hmem hended
    have hstatus := h.lasting sighting hmem hended
    rw [status_thread (by rwa [hstatus]), hstatus]
  unique := h.unique

theorem Ongoing.thread {s : Scene T} (h : s.Ongoing) (worker : Nat) :
    (s.thread worker).Ongoing where
  left_le := h.left_le
  ordered := by
    rw [places_thread]
    exact h.ordered
  unseen := h.unseen
  running := h.running
  consumed := by
    rw [places_thread]
    exact h.consumed
  unfailed := h.unfailed
  wakes := h.wakes
  nonempty := h.nonempty

theorem Justified.thread {deadline : Option Nat} {s : Scene T} {verdict : Verdict}
    (h : s.Justified deadline verdict) (worker : Nat) :
    (s.thread worker).Justified deadline verdict := by
  have kept : ∀ {number : Nat} {status : Status}, status ≠ .running →
      s.status number = status → (s.thread worker).status number = status := by
    intro number status hended hstatus
    rw [status_thread (by rwa [hstatus]), hstatus]
  cases verdict with
  | allSucceeded =>
      intro place hplace
      rw [places_thread] at hplace
      exact kept (by simp) (h place hplace)
  | failed f =>
      obtain ⟨earlier, place, hseen, hplace, hstatus, hearlier, hbefore⟩ := h
      refine ⟨earlier, place, hseen, ?_, kept (by simp) hstatus, hearlier, ?_⟩
      · rw [places_thread]
        exact hplace
      · rw [places_thread]
        exact hbefore
  | timedOut running =>
      obtain ⟨hover, hne, hrunning, hrest⟩ := h
      refine ⟨hover, hne, ?_, ?_⟩
      · rw [places_thread]
        exact hrunning
      · intro place hplace hnot
        rw [places_thread] at hplace
        exact kept (by simp) (hrest place hplace hnot)
  | waiting running => exact h

/-! ## Looks of the barrier -/

theorem Faithful.note {s : Scene T} (h : s.Faithful) {place : Place} (hplace : place ∈ s.places)
    (unseen : ∀ sighting ∈ s.sightings, sighting.pass = s.pass → sighting.place ≠ place) :
    (s.note place).Faithful where
  known := by
    intro sighting hmem
    rcases List.mem_append.mp hmem with hmem | hmem
    · exact h.known sighting hmem
    · rw [List.mem_singleton.mp hmem]
      exact hplace
  past := by
    intro sighting hmem
    rcases List.mem_append.mp hmem with hmem | hmem
    · exact h.past sighting hmem
    · rw [List.mem_singleton.mp hmem]
      exact Nat.le_refl _
  lasting := by
    intro sighting hmem hended
    rcases List.mem_append.mp hmem with hmem | hmem
    · exact h.lasting sighting hmem hended
    · rw [List.mem_singleton.mp hmem]
      rfl
  unique := by
    intro a ha b hb hpass hsame
    rcases List.mem_append.mp ha with ha | ha <;> rcases List.mem_append.mp hb with hb | hb
    · exact h.unique a ha b hb hpass hsame
    · rw [List.mem_singleton.mp hb] at hpass hsame
      exact absurd hsame (unseen a ha hpass)
    · rw [List.mem_singleton.mp ha] at hpass hsame
      exact absurd hsame.symm (unseen b hb hpass.symm)
    · rw [List.mem_singleton.mp ha, List.mem_singleton.mp hb]

theorem Faithful.turn {s : Scene T} (h : s.Faithful) (queue : List Place) (phase : Phase) :
    Faithful { s with queue, phase } :=
  ⟨h.known, h.past, h.lasting, h.unique⟩

/-- A place at the front of the queue splits the order of the list: those looked at in this pass
come before it, those still to be looked at behind it. -/
structure Front (s : Scene T) (place : Place) (rest : List Place) (left : Nat) : Prop where
  left_le : left ≤ rest.length
  unvisited : s.unvisited = place :: rest.take left
  revisited : s.revisited = rest.drop left

theorem Ongoing.front {s : Scene T} (h : s.Ongoing) {place : Place} {rest : List Place} {left : Nat}
    (hphase : s.phase = .looking (left + 1)) (hqueue : s.queue = place :: rest) :
    s.Front place rest left where
  left_le := by
    have hle := h.left_le
    simp only [Scene.left, hphase, hqueue, List.length_cons] at hle
    omega
  unvisited := by simp [Scene.unvisited, Scene.left, hphase, hqueue]
  revisited := by simp [Scene.revisited, Scene.left, hphase, hqueue]

theorem Ongoing.front_mem {s : Scene T} (h : s.Ongoing) {place : Place} {rest : List Place}
    {left : Nat} (front : s.Front place rest left) : place ∈ s.places := by
  apply h.ordered.subset
  rw [front.unvisited]
  simp

theorem Ongoing.front_unseen {s : Scene T} (h : s.Ongoing) {place : Place} {rest : List Place}
    {left : Nat} (front : s.Front place rest left) :
    ∀ sighting ∈ s.sightings, sighting.pass = s.pass → sighting.place ≠ place := by
  intro sighting hmem hpass hsame
  apply h.unseen sighting hmem hpass
  rw [front.unvisited, hsame]
  exact List.mem_cons_self

/-- No place stands twice in the queue. -/
theorem Ongoing.front_not_mem {s : Scene T} (h : s.Ongoing) {place : Place} {rest : List Place}
    {left : Nat} (front : s.Front place rest left) : place ∉ rest := by
  have hordered := (places_ordered _).sublist h.ordered
  rw [front.unvisited, front.revisited, List.pairwise_append, List.pairwise_cons] at hordered
  intro hmem
  rw [← List.take_append_drop left rest] at hmem
  rcases List.mem_append.mp hmem with hmem | hmem
  · exact absurd (hordered.2.1.1 place hmem) (Nat.lt_irrefl _)
  · exact absurd (hordered.2.2 place hmem place List.mem_cons_self) (Nat.lt_irrefl _)

/-- What is still to be looked at after a look has not been seen in this pass. -/
theorem Ongoing.unseen_note {s : Scene T} (h : s.Ongoing) {place : Place} {rest : List Place}
    {left : Nat} (front : s.Front place rest left) :
    ∀ sighting ∈ (s.note place).sightings, sighting.pass = s.pass →
      sighting.place ∉ rest.take left := by
  intro sighting hmem hpass
  rcases List.mem_append.mp hmem with hmem | hmem
  · have hnot := h.unseen sighting hmem hpass
    rw [front.unvisited] at hnot
    exact fun hin => hnot (List.mem_cons_of_mem place hin)
  · rw [List.mem_singleton.mp hmem]
    exact fun hin => h.front_not_mem front (List.mem_of_mem_take hin)

theorem Ongoing.unfailed_note {s : Scene T} (h : s.Ongoing) {place : Place}
    (unfailed : ∀ f, s.status place.number ≠ .failed f) :
    ∀ sighting ∈ (s.note place).sightings, ∀ f, sighting.status ≠ .failed f := by
  intro sighting hmem f
  rcases List.mem_append.mp hmem with hmem | hmem
  · exact h.unfailed sighting hmem f
  · rw [List.mem_singleton.mp hmem]
    exact unfailed f

theorem Ongoing.look_running {s : Scene T} (h : s.Ongoing) {place : Place} {rest : List Place}
    {left : Nat} (hqueue : s.queue = place :: rest) (front : s.Front place rest left)
    (hstatus : s.status place.number = .running) :
    Ongoing { s.note place with queue := rest ++ [place], phase := .looking left } := by
  have hleft := front.left_le
  have hunvisited : (rest ++ [place]).take left = rest.take left :=
    List.take_append_of_le_length hleft
  have hrevisited : (rest ++ [place]).drop left = rest.drop left ++ [place] :=
    List.drop_append_of_le_length hleft
  constructor
  case left_le =>
      simp only [Scene.left, List.length_append, List.length_singleton]
      omega
  case ordered =>
      have hordered := h.ordered
      rw [front.unvisited, front.revisited] at hordered
      change ((rest ++ [place]).drop left ++ (rest ++ [place]).take left).Sublist s.places
      rw [hunvisited, hrevisited]
      simpa using hordered
  case unseen =>
      simp only [Scene.unvisited, Scene.left, hunvisited]
      exact h.unseen_note front
  case running =>
      intro other
      have hold := h.running other
      rw [front.revisited] at hold
      simp [Scene.note, Scene.revisited, Scene.left, hrevisited, hold, hstatus]
  case consumed =>
      intro other hother hnot
      have hnot' : other ∉ s.queue := by
        rw [hqueue]
        simpa [or_comm] using hnot
      obtain ⟨sighting, hmem, hfound⟩ := h.consumed other hother hnot'
      exact ⟨sighting, List.mem_append_left _ hmem, hfound⟩
  case unfailed => exact h.unfailed_note (by simp [hstatus])
  case wakes => exact h.wakes
  case nonempty => simp

theorem Ongoing.look_succeeded {s : Scene T} (h : s.Ongoing) {place : Place} {rest : List Place}
    {left : Nat} (hqueue : s.queue = place :: rest) (front : s.Front place rest left)
    (hstatus : s.status place.number = .succeeded) :
    Ongoing { s.note place with queue := rest, phase := .looking left } := by
  constructor
  case left_le => exact front.left_le
  case ordered =>
      have hordered := h.ordered
      rw [front.unvisited, front.revisited] at hordered
      refine List.Sublist.trans ?_ hordered
      exact List.Sublist.append (List.Sublist.refl _) (List.sublist_cons_self _ _)
  case unseen => exact h.unseen_note front
  case running =>
      intro other
      have hold := h.running other
      rw [front.revisited] at hold
      simp [Scene.note, Scene.revisited, Scene.left, hold, hstatus]
  case consumed =>
      intro other hother hnot
      by_cases hsame : other = place
      · refine ⟨⟨s.pass, place, s.status place.number⟩, ?_, hsame.symm, hstatus⟩
        simp [Scene.note]
      · have hnot' : other ∉ s.queue := by
          rw [hqueue, List.mem_cons, not_or]
          exact ⟨hsame, hnot⟩
        obtain ⟨sighting, hmem, hfound⟩ := h.consumed other hother hnot'
        exact ⟨sighting, List.mem_append_left _ hmem, hfound⟩
  case unfailed => exact h.unfailed_note (by simp [hstatus])
  case wakes => exact h.wakes
  case nonempty => simp

/-- A worker that comes before the one at the front of the queue was looked at in this pass, or has
been found successful before. -/
theorem Ongoing.preceding {s : Scene T} (h : s.Ongoing) (faithful : s.Faithful) {place : Place}
    {rest : List Place} {left : Nat} (hqueue : s.queue = place :: rest)
    (front : s.Front place rest left) {other : Place} (hother : other ∈ s.places)
    (before : other.number < place.number) :
    ∃ sighting ∈ s.sightings, sighting.place = other ∧
      (sighting.pass = s.pass ∧ sighting.status = .running ∨
        sighting.pass ≤ s.pass ∧ sighting.status = .succeeded) := by
  by_cases hmem : other ∈ s.queue
  · have hordered := (places_ordered _).sublist h.ordered
    rw [front.unvisited, front.revisited, List.pairwise_append, List.pairwise_cons] at hordered
    have hrest : other ∈ rest := by
      rw [hqueue] at hmem
      rcases List.mem_cons.mp hmem with rfl | hmem
      · exact absurd before (Nat.lt_irrefl _)
      · exact hmem
    rw [← List.take_append_drop left rest] at hrest
    rcases List.mem_append.mp hrest with hlater | hearlier
    · exact absurd (hordered.2.1.1 other hlater) (Nat.lt_asymm before)
    · rw [← front.revisited] at hearlier
      exact ⟨_, (h.running other).mpr hearlier, rfl, Or.inl ⟨rfl, rfl⟩⟩
  · obtain ⟨sighting, hseen, hplace, hstatus⟩ := h.consumed other hother hmem
    exact ⟨sighting, hseen, hplace, Or.inr ⟨faithful.past sighting hseen, hstatus⟩⟩

theorem Ongoing.look_failed {deadline : Option Nat} {s : Scene T} (h : s.Ongoing)
    (faithful : s.Faithful) {place : Place} {rest : List Place} {left : Nat}
    (hqueue : s.queue = place :: rest) (front : s.Front place rest left) {f : Failure}
    (hstatus : s.status place.number = .failed f) :
    Justified deadline { s.note place with queue := rest, phase := .ended (.failed f) }
      (.failed f) := by
  refine ⟨s.sightings, place, ?_, h.front_mem front, hstatus, h.unfailed, ?_⟩
  · simp [Scene.note, hstatus]
  · intro other hother before
    exact h.preceding faithful hqueue front hother before

/-- An empty queue means that all workers have been found successful. -/
theorem Ongoing.allSucceeded {s : Scene T} (h : s.Ongoing) (faithful : s.Faithful)
    (hqueue : s.queue = []) : ∀ place ∈ s.places, s.status place.number = .succeeded := by
  intro place hplace
  obtain ⟨sighting, hmem, rfl, hfound⟩ := h.consumed place hplace (by simp [hqueue])
  rw [faithful.lasting sighting hmem (by simp [hfound]), hfound]

/-- A barrier that has looked at all workers goes to sleep. -/
theorem Ongoing.pause {s : Scene T} (h : s.Ongoing) (hphase : s.phase = .looking 0)
    (hqueue : s.queue ≠ []) : Ongoing { s with phase := .asleep } := by
  have hleft : s.left = 0 := by simp [Scene.left, hphase]
  constructor
  case left_le => exact Nat.zero_le _
  case ordered =>
      have hordered := h.ordered
      rw [Scene.revisited, Scene.unvisited, hleft] at hordered
      exact hordered
  case unseen =>
      have hunseen := h.unseen
      rw [Scene.unvisited, hleft] at hunseen
      exact hunseen
  case running =>
      have hrunning := h.running
      rw [Scene.revisited, hleft] at hrunning
      exact hrunning
  case consumed => exact h.consumed
  case unfailed => exact h.unfailed
  case wakes => exact h.wakes
  case nonempty => exact fun _ => hqueue

theorem Sound.proceed {deadline : Option Nat} {s : Scene T} (h : s.Sound deadline) :
    s.proceed.Sound deadline := by
  have hstep := s.proceedsTo_proceed
  generalize s.proceed = next at hstep
  cases hstep with
  | idle => exact h
  | finished hphase hqueue =>
      have ongoing := h.ongoing (by simp [hphase])
      refine ⟨h.faithful.turn _ _, by simp, ?_⟩
      rintro verdict ⟨⟩
      exact ongoing.allSucceeded h.faithful hqueue
  | paused hphase hqueue =>
      have ongoing := h.ongoing (by simp [hphase])
      exact ⟨h.faithful.turn _ _, fun _ => ongoing.pause hphase hqueue, by simp⟩
  | running hphase hqueue hstatus =>
      have ongoing := h.ongoing (by simp [hphase])
      have front := ongoing.front hphase hqueue
      have faithful := h.faithful.note (ongoing.front_mem front) (ongoing.front_unseen front)
      exact ⟨faithful.turn _ _, fun _ => ongoing.look_running hqueue front hstatus, by simp⟩
  | succeeded hphase hqueue hstatus =>
      have ongoing := h.ongoing (by simp [hphase])
      have front := ongoing.front hphase hqueue
      have faithful := h.faithful.note (ongoing.front_mem front) (ongoing.front_unseen front)
      exact ⟨faithful.turn _ _, fun _ => ongoing.look_succeeded hqueue front hstatus, by simp⟩
  | failed hphase hqueue hstatus =>
      have ongoing := h.ongoing (by simp [hphase])
      have front := ongoing.front hphase hqueue
      have faithful := h.faithful.note (ongoing.front_mem front) (ongoing.front_unseen front)
      refine ⟨faithful.turn _ _, by simp, ?_⟩
      rintro verdict ⟨⟩
      exact ongoing.look_failed h.faithful hqueue front hstatus

/-- Members of an ordered list that stand in its order are all that pass the test for them. -/
theorem eq_filter_of_sublist {queue all : List Place} {test : Place → Bool}
    (ordered : all.Pairwise fun a b => a.number < b.number) (sublist : queue.Sublist all)
    (mem : ∀ place ∈ all, test place = true ↔ place ∈ queue) : queue = all.filter test := by
  have hfilter : queue.filter test = queue := by
    rw [List.filter_eq_self]
    intro place hplace
    exact (mem place (sublist.subset hplace)).mpr hplace
  have hsublist : queue.Sublist (all.filter test) := by
    rw [← hfilter]
    exact sublist.filter test
  have hnodup : (all.filter test).Nodup := by
    refine List.Pairwise.imp ?_ (ordered.filter test)
    rintro a b hlt rfl
    exact absurd hlt (Nat.lt_irrefl _)
  have hsubset : all.filter test ⊆ queue := by
    intro place hplace
    obtain ⟨hall, htest⟩ := List.mem_filter.mp hplace
    exact (mem place hall).mp htest
  exact hsublist.eq_of_length_le (List.subperm_of_subset hnodup hsubset).length_le

/-- Asleep, the barrier has found running just those that are in its queue. -/
theorem Ongoing.asleep {s : Scene T} (h : s.Ongoing) (hphase : s.phase = .asleep) :
    s.queue.Sublist s.places ∧
      ∀ place, ⟨s.pass, place, .running⟩ ∈ s.sightings ↔ place ∈ s.queue := by
  have hleft : s.left = 0 := by simp [Scene.left, hphase]
  have hordered := h.ordered
  have hrunning := h.running
  rw [Scene.revisited, Scene.unvisited, hleft, List.drop_zero, List.take_zero,
    List.append_nil] at hordered
  rw [Scene.revisited, hleft, List.drop_zero] at hrunning
  exact ⟨hordered, hrunning⟩

theorem Ongoing.timedOut {deadline : Option Nat} {s : Scene T} {now : Nat} (h : s.Ongoing)
    (faithful : s.Faithful) (hphase : s.phase = .asleep) (hlate : isOver deadline now = true) :
    Justified deadline { s with wakes := s.wakes ++ [now], phase := .ended (.timedOut s.queue) }
      (.timedOut s.queue) := by
  obtain ⟨hordered, hrunning⟩ := h.asleep hphase
  refine ⟨?_, h.nonempty hphase, ?_, ?_⟩
  · cases hdeadline : deadline with
    | none => simp [isOver, hdeadline] at hlate
    | some time => exact ⟨time, now, rfl, by simp, by simpa [isOver, hdeadline] using hlate⟩
  · apply eq_filter_of_sublist (places_ordered _) hordered
    intro place _
    rw [decide_eq_true_eq]
    exact hrunning place
  · intro place hplace hnot
    obtain ⟨sighting, hmem, rfl, hfound⟩ := h.consumed place hplace hnot
    have hlasting := faithful.lasting sighting hmem (by simp [hfound])
    exact hlasting.trans hfound

/-- A new pass begins: no worker has been seen in it. -/
theorem Ongoing.again {s : Scene T} (h : s.Ongoing) (faithful : s.Faithful)
    (hphase : s.phase = .asleep) (now : Nat) :
    Ongoing { s with
      wakes := s.wakes ++ [now], phase := .looking s.queue.length, pass := s.pass + 1 } := by
  have hnone : ∀ sighting ∈ s.sightings, sighting.pass ≠ s.pass + 1 := by
    intro sighting hmem
    have hpast := faithful.past sighting hmem
    omega
  constructor
  case left_le => exact Nat.le_refl _
  case ordered =>
      change (s.queue.drop s.queue.length ++ s.queue.take s.queue.length).Sublist s.places
      rw [List.drop_length, List.take_length]
      exact (h.asleep hphase).1
  case unseen =>
      intro sighting hmem hpass
      exact absurd hpass (hnone sighting hmem)
  case running =>
      intro place
      change _ ↔ place ∈ s.queue.drop s.queue.length
      simp only [List.drop_length, List.not_mem_nil, iff_false]
      intro hmem
      exact hnone _ hmem rfl
  case consumed => exact h.consumed
  case unfailed => exact h.unfailed
  case wakes => simp [h.wakes]
  case nonempty => simp

theorem Sound.wake {deadline : Option Nat} {s : Scene T} (h : s.Sound deadline) (now : Nat) :
    (s.wake deadline now).Sound deadline := by
  have hstep := s.wakesTo_wake deadline now
  generalize s.wake deadline now = next at hstep
  cases hstep with
  | idle => exact h
  | late hphase hlate =>
      have ongoing := h.ongoing (by simp [hphase])
      refine ⟨⟨h.faithful.known, h.faithful.past, h.faithful.lasting, h.faithful.unique⟩,
        by simp, ?_⟩
      rintro verdict ⟨⟩
      exact ongoing.timedOut h.faithful hphase hlate
  | again hphase =>
      have ongoing := h.ongoing (by simp [hphase])
      refine ⟨⟨h.faithful.known, ?_, h.faithful.lasting, h.faithful.unique⟩,
        fun _ => ongoing.again h.faithful hphase now, by simp⟩
      intro sighting hmem
      exact Nat.le_succ_of_le (h.faithful.past sighting hmem)

theorem Sound.thread {deadline : Option Nat} {s : Scene T} (h : s.Sound deadline) (worker : Nat) :
    (s.thread worker).Sound deadline where
  faithful := h.faithful.thread worker
  ongoing := fun hphase => (h.ongoing hphase).thread worker
  justified := fun verdict hphase => (h.justified verdict hphase).thread worker

theorem Sound.begin (deadline : Option Nat) (handles : List (Handle T)) :
    (Scene.begin handles).Sound deadline := by
  have hlength : (Scene.begin handles).queue.length = handles.length := by
    simp [Scene.begin, Barrier.places]
  have hunvisited : (Scene.begin handles).unvisited = (Scene.begin handles).queue := by
    rw [Scene.unvisited, List.take_of_length_le]
    exact Nat.le_of_eq hlength
  have hrevisited : (Scene.begin handles).revisited = [] := by
    rw [Scene.revisited, List.drop_eq_nil_iff]
    exact Nat.le_of_eq hlength
  refine ⟨⟨by simp [Scene.begin], by simp [Scene.begin], by simp [Scene.begin],
    by simp [Scene.begin]⟩, fun _ => ?_, by simp [Scene.begin]⟩
  refine ⟨Nat.le_of_eq hlength.symm, ?_, by simp [Scene.begin], ?_, ?_, by simp [Scene.begin], rfl,
    by simp [Scene.begin]⟩
  · rw [hunvisited, hrevisited, List.nil_append]
    exact List.Sublist.refl _
  · rw [hrevisited]
    simp [Scene.begin]
  · intro place hplace hnot
    exact absurd hplace hnot

theorem Sound.run {deadline : Option Nat} {s : Scene T} (h : s.Sound deadline)
    (actions : List Action) : (s.run deadline actions).Sound deadline := by
  induction actions generalizing s with
  | nil => exact h
  | cons action rest ih =>
      apply ih
      cases action with
      | thread worker => exact h.thread worker
      | proceed => exact h.proceed
      | wake now => exact h.wake now

end Scene

end Testbed.Worker.Barrier
