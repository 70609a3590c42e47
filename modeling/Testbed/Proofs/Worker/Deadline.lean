import Mathlib.Data.Nat.Find
import Mathlib.Tactic.Push
import Testbed.Proofs.Worker.Passes

/-!
# The deadline of a barrier

With a clock whose sleeps last exactly the interval, the passes fall on the multiples of the
interval, and the last one that is made is the last multiple within the timeout.  What the workers
publish after that pass is not looked at, so the promise of the barrier to notice everything that is
published before the deadline is kept exactly if nothing that matters falls behind the last pass.
-/

namespace Testbed.Worker.Barrier

open Handle (Status)

/-! ## What is found at given times -/

theorem Entrant.statusAt_of_le {e : Entrant} {early late : Nat} (order : early ≤ late)
    (ended : e.statusAt early ≠ .running) : e.statusAt late = e.statusAt early := by
  unfold statusAt at ended ⊢
  cases htime : e.time with
  | none => simp [htime] at ended
  | some time =>
      by_cases hearly : time ≤ early
      · have hlate : time ≤ late := Nat.le_trans hearly order
        simp [hearly, hlate]
      · simp [htime, hearly] at ended

theorem Clock.passTime_le_succ (clock : Clock) (number : Nat) :
    clock.passTime number ≤ clock.passTime (number + 1) := by
  simp only [passTime]
  omega

variable {clock : Clock} {timeout : Duration} {entrants : List Entrant}

theorem Watch.status_ofClock {worker : Nat} {e : Entrant} (h : entrants[worker]? = some e)
    (number : Nat) :
    (ofClock clock timeout entrants).status number worker = e.statusAt (clock.passTime number) := by
  simp [ofClock, h]

theorem Watch.ofClock_lasting : (ofClock clock timeout entrants).Lasting := by
  intro number worker ended
  cases hworker : entrants[worker]? with
  | none => simp [ofClock, hworker]
  | some e =>
      rw [status_ofClock hworker] at ended ⊢
      rw [status_ofClock hworker]
      exact Entrant.statusAt_of_le (clock.passTime_le_succ number) ended

/-- What holds of all places, or of one of them, holds of all entrants, or of one of them. -/
theorem forall_places_iff (clock : Clock) (timeout : Duration) (entrants : List Entrant)
    {motive : Status → Prop} (number : Nat) :
    (∀ place ∈ places (entrants.map (·.name)),
        motive ((Watch.ofClock clock timeout entrants).status number place.number)) ↔
      ∀ e ∈ entrants, motive (e.statusAt (clock.passTime number)) := by
  constructor
  · intro h e he
    obtain ⟨worker, hworker⟩ := List.mem_iff_getElem?.mp he
    have hplace : (⟨worker, e.name⟩ : Place) ∈ places (entrants.map (·.name)) := by
      simp [mem_places, hworker]
    have hmotive := h _ hplace
    rwa [Watch.status_ofClock hworker] at hmotive
  · intro h place hplace
    rw [mem_places, List.getElem?_map, Option.map_eq_some_iff] at hplace
    obtain ⟨e, he, -⟩ := hplace
    rw [Watch.status_ofClock he]
    exact h e (List.mem_of_getElem? he)

theorem exists_places_iff (clock : Clock) (timeout : Duration) (entrants : List Entrant)
    {motive : Status → Prop} (number : Nat) :
    (∃ place ∈ places (entrants.map (·.name)),
        motive ((Watch.ofClock clock timeout entrants).status number place.number)) ↔
      ∃ e ∈ entrants, motive (e.statusAt (clock.passTime number)) := by
  have h := not_congr (forall_places_iff clock timeout entrants
    (motive := fun status => ¬motive status) number)
  simp only [Classical.not_forall, Classical.not_not, exists_prop] at h
  exact h

/-- The names of those still running are those of the entrants still running, in their order. -/
theorem names_stillRunning (clock : Clock) (timeout : Duration) (entrants : List Entrant)
    (number : Nat) :
    (stillRunning ((Watch.ofClock clock timeout entrants).status number)
        (places (entrants.map (·.name)))).map (·.name) =
      (entrants.filter fun e => e.statusAt (clock.passTime number) = .running).map (·.name) := by
  have hfilter : entrants.zipIdx.filter (fun entry =>
        (Watch.ofClock clock timeout entrants).status number entry.2 = .running) =
      entrants.zipIdx.filter ((fun e : Entrant =>
        decide (e.statusAt (clock.passTime number) = .running)) ∘ Prod.fst) := by
    apply List.filter_congr
    intro entry hentry
    rw [Watch.status_ofClock (List.mem_zipIdx_iff_getElem?.mp hentry)]
    rfl
  have hplaces : places (entrants.map (·.name)) =
      entrants.zipIdx.map fun entry => { number := entry.2, name := entry.1.name } := by
    rw [places, List.zipIdx_map, List.map_map]
    rfl
  conv_rhs => rw [← List.zipIdx_map_fst 0 entrants, List.filter_map, ← hfilter, List.map_map]
  rw [stillRunning, hplaces, List.filter_map, List.map_map]
  rfl

/-! ## The last pass -/

theorem interval_pos : 0 < interval.nanoseconds := by decide

/-- No pass comes before its turn. -/
theorem Clock.mul_le_passTime (clock : Clock) (number : Nat) :
    number * interval.nanoseconds ≤ clock.passTime number := by
  induction number with
  | zero => simp
  | succ number ih =>
      rw [Nat.succ_mul, passTime]
      omega

theorem le_latest {e : Entrant} (he : e ∈ entrants) {time : Nat} (h : e.time = some time) :
    time ≤ latest entrants := by
  have hmem : time ∈ entrants.filterMap (·.time) := List.mem_filterMap.mpr ⟨e, he, h⟩
  have bound : ∀ (times : List Nat) (least : Nat),
      least ≤ times.foldl max least ∧ ∀ t ∈ times, t ≤ times.foldl max least := by
    intro times
    induction times with
    | nil => simp
    | cons t rest ih =>
        intro least
        obtain ⟨hleast, hrest⟩ := ih (max least t)
        refine ⟨Nat.le_trans (Nat.le_max_left least t) hleast, ?_⟩
        intro u hu
        rcases List.mem_cons.mp hu with rfl | hu
        · exact Nat.le_trans (Nat.le_max_right least u) hleast
        · exact hrest u hu
  exact (bound _ 0).2 time hmem

/-- The pass of a number is the last one of a wait: the first after which the deadline is over, or
the last that is made at all. -/
structure IsLast (clock : Clock) (timeout : Duration) (entrants : List Entrant) (last : Nat) :
    Prop where
  early : ∀ number < last, (Watch.ofClock clock timeout entrants).expired number = false
  reached : last < passLimit clock timeout entrants
  ends : (Watch.ofClock clock timeout entrants).expired last = true ∨
    last + 1 = passLimit clock timeout entrants

theorem exists_isLast (clock : Clock) (timeout : Duration) (entrants : List Entrant) :
    ∃ last, IsLast clock timeout entrants last := by
  have made : 0 < passLimit clock timeout entrants := Nat.succ_pos _
  by_cases hexpired : ∃ number, number < passLimit clock timeout entrants ∧
      (Watch.ofClock clock timeout entrants).expired number = true
  · obtain ⟨hlt, hover⟩ := Nat.find_spec hexpired
    refine ⟨Nat.find hexpired, fun number hnumber => ?_, hlt, Or.inl hover⟩
    have hmin := Nat.find_min hexpired hnumber
    rw [not_and, Bool.not_eq_true] at hmin
    exact hmin (Nat.lt_trans hnumber hlt)
  · push Not at hexpired
    refine ⟨passLimit clock timeout entrants - 1, fun number hnumber => ?_, by omega,
      Or.inr (by omega)⟩
    exact Bool.eq_false_iff.mpr (hexpired number (by omega))

/-- The verdict suits the last pass. -/
theorem IsLast.suits {last : Nat} (h : IsLast clock timeout entrants last) :
    (joinAll clock timeout entrants).Suits
      ((Watch.ofClock clock timeout entrants).status last)
      ((Watch.ofClock clock timeout entrants).expired last) (places (entrants.map (·.name))) := by
  apply passes_suits Watch.ofClock_lasting h.early _ _ _ (Nat.zero_le _)
  · rw [Nat.zero_add]
    exact h.reached
  · rw [Nat.zero_add]
    exact h.ends.imp_right Eq.symm

/-- If the deadline is not over after the last pass there is none, and all workers that ever finish
have done so by then. -/
theorem IsLast.of_not_expired {last : Nat} (h : IsLast clock timeout entrants last)
    (hexpired : (Watch.ofClock clock timeout entrants).expired last = false) :
    clock.deadline? timeout = none ∧ latest entrants ≤ clock.passTime last := by
  have hlast : last + 1 = passLimit clock timeout entrants := by
    rcases h.ends with hover | hlast
    · rw [hexpired] at hover
      cases hover
    · exact hlast
  -- The number of passes is chosen so that the last one comes after everything that can happen.
  have behind : ∀ time, passLimit clock timeout entrants = time / interval.nanoseconds + 2 →
      time < clock.passTime last := by
    intro time hlimit
    have hquotient : time / interval.nanoseconds < last := by omega
    exact Nat.lt_of_lt_of_le ((Nat.div_lt_iff_lt_mul interval_pos).mp hquotient)
      (clock.mul_le_passTime last)
  cases hdeadline : clock.deadline? timeout with
  | none =>
      refine ⟨rfl, Nat.le_of_lt (behind _ ?_)⟩
      rw [passLimit, hdeadline]
  | some deadline =>
      exfalso
      have hover := behind (max timeout.nanoseconds (latest entrants)) (by
        rw [passLimit, hdeadline])
      have hnext := clock.passTime_le_succ last
      simp only [Clock.deadline?, Option.ite_none_right_eq_some, Option.some.injEq] at hdeadline
      obtain ⟨hrange, rfl⟩ := hdeadline
      simp only [Watch.ofClock, Clock.deadline?, if_pos hrange, decide_eq_false_iff_not] at hexpired
      omega

/-! ## Verdicts forced by the last pass -/

theorem Verdict.Suits.eq_allSucceeded {status : Nat → Status} {expired : Bool} {queue : List Place}
    {verdict : Verdict} (h : verdict.Suits status expired queue)
    (all : ∀ place ∈ queue, status place.number = .succeeded) : verdict = .allSucceeded := by
  have nobody : stillRunning status queue = [] := by
    rw [stillRunning, List.filter_eq_nil_iff]
    intro place hplace
    simp [all place hplace]
  cases verdict with
  | allSucceeded => rfl
  | failed f =>
      obtain ⟨place, hplace, hf⟩ := h
      simp [all place hplace] at hf
  | timedOut running => exact absurd (h.2.1.trans nobody) h.2.2.1
  | waiting running => exact absurd (h.2.1.trans nobody) h.2.2.1

theorem Verdict.Suits.eq_failed {status : Nat → Status} {expired : Bool} {queue : List Place}
    {verdict : Verdict} (h : verdict.Suits status expired queue)
    (some : ∃ place ∈ queue, ∃ f, status place.number = .failed f) :
    ∃ f, verdict = .failed f := by
  obtain ⟨place, hplace, f, hf⟩ := some
  cases verdict with
  | allSucceeded => simp [h place hplace] at hf
  | failed g => exact ⟨g, rfl⟩
  | timedOut running => exact absurd hf (h.2.2.2 place hplace f)
  | waiting running => exact absurd hf (h.2.2.2 place hplace f)

/-! ## Exact clocks -/

/-- A clock whose sleeps last exactly the interval. -/
def Clock.exact (start : Nat) : Clock := { start, overshoot := fun _ => 0 }

@[simp] theorem Clock.passTime_exact (start number : Nat) :
    (exact start).passTime number = number * interval.nanoseconds := by
  induction number with
  | zero => simp [passTime]
  | succ number ih =>
      rw [passTime, ih]
      simp [exact, Nat.add_mul]

/-- The number of the last pass that is made within a timeout. -/
def lastPass (timeout : Duration) : Nat := timeout.nanoseconds / interval.nanoseconds

/-- The time of the last pass that is made within a timeout. -/
def lastPassTime (timeout : Duration) : Nat := lastPass timeout * interval.nanoseconds

/-- With a deadline, the deadline is over exactly after the last pass and those behind it. -/
theorem expired_exact_iff {start deadline : Nat}
    (h : (Clock.exact start).deadline? timeout = some deadline) (number : Nat) :
    (Watch.ofClock (.exact start) timeout entrants).expired number = true ↔
      lastPass timeout ≤ number := by
  have hdeadline : deadline = start + timeout.nanoseconds := by
    simp only [Clock.deadline?, Option.ite_none_right_eq_some, Option.some.injEq] at h
    exact h.2.symm
  have hexpired : (Watch.ofClock (.exact start) timeout entrants).expired number = true ↔
      timeout.nanoseconds < (number + 1) * interval.nanoseconds := by
    simp only [Watch.ofClock, h, hdeadline, Clock.passTime_exact, decide_eq_true_eq]
    exact Nat.add_lt_add_iff_left
  rw [hexpired, ← Nat.div_lt_iff_lt_mul interval_pos]
  exact Nat.lt_add_one_iff

theorem expired_of_deadline_none {start : Nat}
    (h : (Clock.exact start).deadline? timeout = none) (number : Nat) :
    (Watch.ofClock (.exact start) timeout entrants).expired number = false := by
  simp [Watch.ofClock, h]

/-- With a deadline, the last pass is the last one within the timeout. -/
theorem isLast_lastPass (entrants : List Entrant) {start deadline : Nat}
    (h : (Clock.exact start).deadline? timeout = some deadline) :
    IsLast (.exact start) timeout entrants (lastPass timeout) where
  early := by
    intro number hlt
    rw [Bool.eq_false_iff]
    intro hexpired
    exact absurd ((expired_exact_iff h number).mp hexpired) (Nat.not_le.mpr hlt)
  reached := by
    have hmax : timeout.nanoseconds / interval.nanoseconds ≤
        max timeout.nanoseconds (latest entrants) / interval.nanoseconds :=
      Nat.div_le_div_right (Nat.le_max_left _ _)
    simp only [passLimit, h, lastPass]
    omega
  ends := Or.inl ((expired_exact_iff h (lastPass timeout)).mpr (Nat.le_refl _))

/-! ## The promise of the barrier -/

/-- The worker publishes its success before a time. -/
def Entrant.SucceedsBefore (e : Entrant) (time : Nat) : Prop :=
  e.outcome = .ok () ∧ ∃ t, e.time = some t ∧ t < time

/-- The worker publishes a failure before a time. -/
def Entrant.FailsBefore (e : Entrant) (time : Nat) : Prop :=
  ∃ f, e.outcome = .error f ∧ ∃ t, e.time = some t ∧ t < time

theorem Entrant.SucceedsBefore.statusAt {e : Entrant} {time now : Nat} (h : e.SucceedsBefore time)
    (past : ∀ t, e.time = some t → t ≤ now) : e.statusAt now = .succeeded := by
  obtain ⟨houtcome, t, ht, -⟩ := h
  simp [Entrant.statusAt, ht, past t ht, houtcome]

theorem Entrant.FailsBefore.statusAt {e : Entrant} {time now : Nat} (h : e.FailsBefore time)
    (past : ∀ t, e.time = some t → t ≤ now) : ∃ f, e.statusAt now = .failed f := by
  obtain ⟨f, houtcome, t, ht, -⟩ := h
  exact ⟨f, by simp [Entrant.statusAt, ht, past t ht, houtcome]⟩

/-- The wait tells what was published before the deadline: success if all workers have succeeded by
then, and a failure if one has failed. -/
def HonoursDeadline (clock : Clock) (timeout : Duration) (entrants : List Entrant) : Prop :=
  ((∀ e ∈ entrants, e.SucceedsBefore timeout.nanoseconds) →
      joinAll clock timeout entrants = .allSucceeded) ∧
    ((∃ e ∈ entrants, e.FailsBefore timeout.nanoseconds) →
      ∃ f, joinAll clock timeout entrants = .failed f)

theorem joinAll_eq_allSucceeded_iff {start deadline : Nat}
    (h : (Clock.exact start).deadline? timeout = some deadline) :
    joinAll (.exact start) timeout entrants = .allSucceeded ↔
      ∀ e ∈ entrants, e.statusAt (lastPassTime timeout) = .succeeded := by
  have suits := (isLast_lastPass entrants h).suits
  have hall := forall_places_iff (.exact start) timeout entrants (motive := (· = .succeeded))
    (lastPass timeout)
  rw [Clock.passTime_exact] at hall
  rw [lastPassTime, ← hall]
  constructor
  · intro hverdict
    rw [hverdict] at suits
    exact suits
  · exact suits.eq_allSucceeded

theorem joinAll_eq_failed_iff {start deadline : Nat}
    (h : (Clock.exact start).deadline? timeout = some deadline) :
    (∃ f, joinAll (.exact start) timeout entrants = .failed f) ↔
      ∃ e ∈ entrants, ∃ f, e.statusAt (lastPassTime timeout) = .failed f := by
  have suits := (isLast_lastPass entrants h).suits
  have hsome := exists_places_iff (.exact start) timeout entrants
    (motive := fun status => ∃ f, status = .failed f) (lastPass timeout)
  rw [Clock.passTime_exact] at hsome
  rw [lastPassTime, ← hsome]
  constructor
  · rintro ⟨f, hverdict⟩
    rw [hverdict] at suits
    obtain ⟨place, hplace, hf⟩ := suits
    exact ⟨place, hplace, f, hf⟩
  · exact suits.eq_failed

/-- A timeout too large for a deadline is always honoured. -/
theorem honoursDeadline_of_none {start : Nat}
    (h : (Clock.exact start).deadline? timeout = none) :
    HonoursDeadline (.exact start) timeout entrants := by
  obtain ⟨last, hlast⟩ := exists_isLast (.exact start) timeout entrants
  have suits := hlast.suits
  obtain ⟨-, hlatest⟩ := hlast.of_not_expired (expired_of_deadline_none h last)
  have past : ∀ e ∈ entrants, ∀ t, e.time = some t → t ≤ (Clock.exact start).passTime last := by
    intro e he t ht
    exact Nat.le_trans (le_latest he ht) hlatest
  constructor
  · intro hall
    apply suits.eq_allSucceeded
    rw [forall_places_iff _ _ _ (motive := (· = .succeeded))]
    intro e he
    exact (hall e he).statusAt (past e he)
  · rintro ⟨e, he, hfails⟩
    apply suits.eq_failed
    rw [exists_places_iff _ _ _ (motive := fun status => ∃ f, status = .failed f)]
    exact ⟨e, he, hfails.statusAt (past e he)⟩

/-- The deadline is honoured exactly if there is none, or if what is published before it decides the
wait at the last pass already: with success of all workers before the deadline all have succeeded by
that pass, and with a failure before the deadline some worker has failed by that pass. -/
theorem honoursDeadline_iff (start : Nat) (timeout : Duration) (entrants : List Entrant) :
    HonoursDeadline (.exact start) timeout entrants ↔
      ∀ deadline, (Clock.exact start).deadline? timeout = some deadline →
        ((∀ e ∈ entrants, e.SucceedsBefore timeout.nanoseconds) →
          ∀ e ∈ entrants, e.statusAt (lastPassTime timeout) = .succeeded) ∧
        ((∃ e ∈ entrants, e.FailsBefore timeout.nanoseconds) →
          ∃ e ∈ entrants, ∃ f, e.statusAt (lastPassTime timeout) = .failed f) := by
  cases h : (Clock.exact start).deadline? timeout with
  | none => simpa using honoursDeadline_of_none h
  | some deadline =>
      rw [HonoursDeadline, joinAll_eq_allSucceeded_iff h, joinAll_eq_failed_iff h]
      simp

/-- A worker that succeeds after the last pass and before the deadline is reported as running: the
only pass within 80 milliseconds is the first, and the worker succeeds after 20. -/
theorem not_honoursDeadline_between_passes :
    ¬HonoursDeadline (.exact 0) (.ofMilliseconds 80)
      [{ name := "w", outcome := .ok (), time := some 20000000 }] := by
  intro h
  have missed : joinAll (.exact 0) (.ofMilliseconds 80)
      [{ name := "w", outcome := .ok (), time := some 20000000 }] =
        .timedOut [⟨0, "w"⟩] := by
    decide
  have found := h.1 (by simp [Entrant.SucceedsBefore, Duration.ofMilliseconds])
  rw [missed] at found
  cases found

end Testbed.Worker.Barrier
