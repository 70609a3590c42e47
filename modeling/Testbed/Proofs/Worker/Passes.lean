import Testbed.Worker.Barrier

/-!
# The passes of a barrier

What a pass finds is decided by the statuses of the workers in its queue, and how a wait ends is
decided by the statuses in one pass: the first after which the deadline is over, or the last that is
made.  The condition for that is that a worker once found at its end is found so ever after.
-/

namespace Testbed.Worker.Barrier

open Handle (Status)

/-! ## Places -/

theorem mem_places {names : List String} {place : Place} :
    place ∈ places names ↔ names[place.number]? = some place.name := by
  unfold places
  rw [List.mem_map]
  constructor
  · rintro ⟨⟨name, number⟩, hmem, rfl⟩
    exact List.mem_zipIdx_iff_getElem?.mp hmem
  · intro h
    exact ⟨(place.name, place.number), List.mem_zipIdx_iff_getElem?.mpr h, rfl⟩

/-- The places stand in the order of their numbers. -/
theorem places_ordered (names : List String) :
    (places names).Pairwise fun a b => a.number < b.number := by
  unfold places
  rw [List.pairwise_map, List.pairwise_iff_getElem]
  intro i j hi hj hlt
  simpa using hlt

/-! ## One pass -/

/-- The places whose worker is found running. -/
def stillRunning (status : Nat → Status) (queue : List Place) : List Place :=
  queue.filter fun place => status place.number = .running

theorem mem_stillRunning {status : Nat → Status} {queue : List Place} {place : Place} :
    place ∈ stillRunning status queue ↔
      place ∈ queue ∧ status place.number = .running := by
  simp [stillRunning]

/-- A pass that finds no failure keeps the workers still running, in their order. -/
theorem sweep_eq_ok {status : Nat → Status} {queue running : List Place}
    (h : sweep status queue = .ok running) :
    running = stillRunning status queue ∧
      ∀ place ∈ queue, ∀ f, status place.number ≠ .failed f := by
  induction queue generalizing running with
  | nil =>
      simp only [sweep, Except.ok.injEq] at h
      subst h
      simp [stillRunning]
  | cons place rest ih =>
      cases hstatus : status place.number with
      | running =>
          simp only [sweep, hstatus] at h
          cases hrest : sweep status rest with
          | error f => simp [hrest, Except.map] at h
          | ok tail =>
              have htail := ih hrest
              simp only [hrest, Except.map, Except.ok.injEq] at h
              subst h
              refine ⟨by simp [stillRunning, hstatus, htail.1], ?_⟩
              intro p hp f
              rcases List.mem_cons.mp hp with rfl | hp
              · simp [hstatus]
              · exact htail.2 p hp f
      | succeeded =>
          simp only [sweep, hstatus] at h
          have htail := ih h
          simpa [stillRunning, hstatus] using htail
      | failed f => simp [sweep, hstatus] at h

/-- The failure that ends a pass is the one of a worker in the queue. -/
theorem sweep_eq_error {status : Nat → Status} {queue : List Place} {f : Failure}
    (h : sweep status queue = .error f) :
    ∃ place ∈ queue, status place.number = .failed f := by
  induction queue with
  | nil => simp [sweep] at h
  | cons place rest ih =>
      cases hstatus : status place.number with
      | running =>
          simp only [sweep, hstatus] at h
          cases hrest : sweep status rest with
          | error g =>
              simp only [hrest, Except.map, Except.error.injEq] at h
              subst h
              obtain ⟨p, hp, hf⟩ := ih hrest
              exact ⟨p, List.mem_cons_of_mem place hp, hf⟩
          | ok tail => simp [hrest, Except.map] at h
      | succeeded =>
          simp only [sweep, hstatus] at h
          obtain ⟨p, hp, hf⟩ := ih h
          exact ⟨p, List.mem_cons_of_mem place hp, hf⟩
      | failed g =>
          simp only [sweep, hstatus, Except.error.injEq] at h
          subst h
          exact ⟨place, List.mem_cons_self, hstatus⟩

/-! ## The last pass -/

/-- A worker that is found at its end in one pass is found so in all later ones. -/
def Watch.Lasting (watch : Watch) : Prop :=
  ∀ number worker, watch.status number worker ≠ .running →
    watch.status (number + 1) worker = watch.status number worker

theorem Watch.Lasting.status_eq {watch : Watch} (lasting : watch.Lasting) {early late worker : Nat}
    (order : early ≤ late) (ended : watch.status early worker ≠ .running) :
    watch.status late worker = watch.status early worker := by
  induction order with
  | refl => rfl
  | step _ ih =>
      rw [← ih]
      apply lasting
      rw [ih]
      exact ended

/-- The verdict that the statuses in the last pass call for; `expired` tells whether the deadline is
over after that pass. -/
def Verdict.Suits (status : Nat → Status) (expired : Bool) (queue : List Place) : Verdict → Prop
  | .allSucceeded => ∀ place ∈ queue, status place.number = .succeeded
  | .failed f => ∃ place ∈ queue, status place.number = .failed f
  | .timedOut running =>
    expired = true ∧ running = stillRunning status queue ∧ running ≠ [] ∧
      ∀ place ∈ queue, ∀ f, status place.number ≠ .failed f
  | .waiting running =>
    expired = false ∧ running = stillRunning status queue ∧ running ≠ [] ∧
      ∀ place ∈ queue, ∀ f, status place.number ≠ .failed f

section LaterPass

variable {watch : Watch} {number last : Nat} {queue : List Place}

/-- A worker that a pass without failures takes out of the queue has succeeded for good. -/
theorem Watch.Lasting.succeeded (lasting : watch.Lasting) (order : number ≤ last)
    (noFailure : ∀ place ∈ queue, ∀ f, watch.status number place.number ≠ .failed f)
    {place : Place} (hplace : place ∈ queue)
    (hnot : place ∉ stillRunning (watch.status number) queue) :
    watch.status last place.number = .succeeded := by
  rw [mem_stillRunning, not_and] at hnot
  have hended := hnot hplace
  rw [lasting.status_eq order hended]
  cases hstatus : watch.status number place.number with
  | running => exact absurd hstatus hended
  | succeeded => rfl
  | failed f => exact absurd hstatus (noFailure place hplace f)

theorem Watch.Lasting.stillRunning_stillRunning (lasting : watch.Lasting) (order : number ≤ last)
    (noFailure : ∀ place ∈ queue, ∀ f, watch.status number place.number ≠ .failed f) :
    stillRunning (watch.status last) (stillRunning (watch.status number) queue) =
      stillRunning (watch.status last) queue := by
  rw [stillRunning, stillRunning, stillRunning, List.filter_filter]
  apply List.filter_congr
  intro place hplace
  by_cases hmem : watch.status number place.number = .running
  · simp [hmem]
  · have hdone := lasting.succeeded order noFailure hplace (by simp [mem_stillRunning, hmem])
    simp [hmem, hdone]

/-- What is found in an earlier pass is found in the last one, so a verdict that suits the workers
left after that pass suits all that were in its queue. -/
theorem Verdict.Suits.of_stillRunning (lasting : watch.Lasting) (order : number ≤ last)
    {expired : Bool}
    (noFailure : ∀ place ∈ queue, ∀ f, watch.status number place.number ≠ .failed f)
    {verdict : Verdict}
    (h : verdict.Suits (watch.status last) expired (stillRunning (watch.status number) queue)) :
    verdict.Suits (watch.status last) expired queue := by
  have filtered := lasting.stillRunning_stillRunning order noFailure
  have unfailed :
      (∀ place ∈ stillRunning (watch.status number) queue, ∀ f,
        watch.status last place.number ≠ .failed f) →
      ∀ place ∈ queue, ∀ f, watch.status last place.number ≠ .failed f := by
    intro hleft place hplace f
    by_cases hmem : place ∈ stillRunning (watch.status number) queue
    · exact hleft place hmem f
    · simp [lasting.succeeded order noFailure hplace hmem]
  cases verdict with
  | allSucceeded =>
      intro place hplace
      by_cases hmem : place ∈ stillRunning (watch.status number) queue
      · exact h place hmem
      · exact lasting.succeeded order noFailure hplace hmem
  | failed f =>
      obtain ⟨place, hplace, hf⟩ := h
      exact ⟨place, (mem_stillRunning.mp hplace).1, hf⟩
  | timedOut running =>
      obtain ⟨hexpired, heq, hne, hleft⟩ := h
      exact ⟨hexpired, heq.trans filtered, hne, unfailed hleft⟩
  | waiting running =>
      obtain ⟨hexpired, heq, hne, hleft⟩ := h
      exact ⟨hexpired, heq.trans filtered, hne, unfailed hleft⟩

end LaterPass

/-- The verdict of a wait suits the last pass: the one after which the deadline is over, or after
which no more are made. -/
theorem passes_suits {watch : Watch} (lasting : watch.Lasting) {last : Nat}
    (early : ∀ number < last, watch.expired number = false)
    (limit number : Nat) (queue : List Place) (order : number ≤ last)
    (reached : last < number + limit)
    (ends : watch.expired last = true ∨ number + limit = last + 1) :
    (passes watch limit number queue).Suits (watch.status last) (watch.expired last) queue := by
  induction limit generalizing number queue with
  | zero => omega
  | succ limit ih =>
      rw [passes]
      cases hsweep : sweep (watch.status number) queue with
      | error f =>
          obtain ⟨place, hplace, hf⟩ := sweep_eq_error hsweep
          refine ⟨place, hplace, ?_⟩
          rw [lasting.status_eq order (by simp [hf]), hf]
      | ok running =>
          obtain ⟨heq, noFailure⟩ := sweep_eq_ok hsweep
          apply Verdict.Suits.of_stillRunning lasting order noFailure
          rw [← heq]
          cases running with
          | nil =>
              intro place hplace
              simp at hplace
          | cons place rest =>
              dsimp only
              rcases Nat.lt_or_eq_of_le order with hlt | rfl
              · rw [early number hlt]
                exact ih (number + 1) (place :: rest) hlt (by omega)
                  (ends.imp_right (by omega))
              · -- The pass is the last one, so the queue it leaves is what is found running.
                have hself :
                    stillRunning (watch.status number) (place :: rest) = place :: rest := by
                  rw [heq]
                  simp [stillRunning, List.filter_filter]
                have hnone :
                    ∀ p ∈ place :: rest, ∀ f, watch.status number p.number ≠ .failed f := by
                  intro p hp f
                  rw [heq] at hp
                  exact noFailure p (mem_stillRunning.mp hp).1 f
                cases hexpired : watch.expired number with
                | true => exact ⟨rfl, hself.symm, by simp, hnone⟩
                | false =>
                    have hlimit : limit = 0 := by
                      rcases ends with h | h
                      · simp [hexpired] at h
                      · omega
                    subst hlimit
                    exact ⟨rfl, hself.symm, by simp, hnone⟩

end Testbed.Worker.Barrier
