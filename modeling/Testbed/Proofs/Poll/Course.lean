import Mathlib.Algebra.Order.Floor.Div
import Mathlib.Tactic.IntervalCases
import Testbed.Poll.Basic

/-!
# The course of a poll

If every evaluation before it has failed, the evaluation of a number begins when those before it
and the sleeps between them are over; `Tempo.begins` is that time, counted from the end of the
delay.  A poll makes the evaluations that begin before the timeout, up to the first that succeeds.
So its report can be told without the loop, whatever the clock does and whatever the evaluations
leave behind.  Another delay moves all times of the report, and changes nothing else.
-/

namespace Testbed.Poll

universe u v

/-! ## When evaluations begin -/

/-- When the evaluation of a number begins, counted from the end of the delay, if there is one. -/
def Tempo.begins (tempo : Tempo) (interval : Nat) : Nat → Nat
  | 0 => 0
  | number + 1 =>
    tempo.begins interval number + tempo.evaluation number + interval + tempo.overshoot (number + 1)

/-- No sleep is shorter than the interval. -/
theorem Tempo.mul_le_begins (tempo : Tempo) (interval number : Nat) :
    number * interval ≤ tempo.begins interval number := by
  induction number with
  | zero => simp
  | succ number ih =>
      rw [Nat.succ_mul, begins]
      omega

theorem Tempo.begins_exact (interval number : Nat) :
    Tempo.exact.begins interval number = number * interval := by
  induction number with
  | zero => simp [begins]
  | succ number ih =>
      rw [begins, ih, Nat.succ_mul]
      rfl

/-! ## Evaluations one after the other -/

section Course

variable {σ : Type u} (evaluate : Nat → σ → Bool × σ) (initial : σ)

/-- What the first evaluations leave behind. -/
def stateAfter : Nat → σ
  | 0 => initial
  | number + 1 => (evaluate number (stateAfter number)).2

/-- Whether the evaluation of a number succeeds, after those before it. -/
def heldAt (number : Nat) : Bool := (evaluate number (stateAfter evaluate initial number)).1

/-- How the rounds of a poll end whose delay was over at a time: with an evaluation that succeeds,
after which there is no sleep, or after a number of failures when the time is over. -/
inductive Ends (timeout interval : Nat) (tempo : Tempo) (start number count : Nat) :
    Report σ → Prop where
  | succeeded (last : Nat) (r : Report σ) (ends : number + count = last + 1)
    (notBefore : number ≤ last) (satisfied : r.satisfied = true)
    (holds : heldAt evaluate initial last = true)
    (finish : r.finish = start + tempo.begins interval last + tempo.evaluation last) :
    Ends timeout interval tempo start number count r
  | timedOut (r : Report σ) (satisfied : r.satisfied = false)
    (fails : ∀ n, number ≤ n → n < number + count → heldAt evaluate initial n = false)
    (finish : r.finish = start + tempo.begins interval (number + count))
    (expired : timeout ≤ tempo.begins interval (number + count)) :
    Ends timeout interval tempo start number count r

/-- The evaluations from one number on that a poll makes: all begin in time, and all but the last
one fail. -/
structure Course (timeout interval : Nat) (tempo : Tempo) (start number count : Nat)
    (r : Report σ) : Prop where
  started : r.start = start
  visits : r.visits = (List.range' number count).map fun n =>
    ⟨start + tempo.begins interval n, heldAt evaluate initial n⟩
  inTime : ∀ n, number ≤ n → n < number + count → tempo.begins interval n < timeout
  fails : ∀ n, number ≤ n → n + 1 < number + count → heldAt evaluate initial n = false
  ends : Ends evaluate initial timeout interval tempo start number count r
  state : r.state = stateAfter evaluate initial (number + count)

variable {evaluate initial} {timeout interval start number : Nat} {tempo : Tempo}

theorem Course.none (expired : timeout ≤ tempo.begins interval number) :
    Course evaluate initial timeout interval tempo start number 0
      ⟨false, start, [], start + tempo.begins interval number,
        stateAfter evaluate initial number⟩ where
  started := rfl
  visits := rfl
  inTime := by omega
  fails := by omega
  ends := .timedOut _ rfl (by omega) rfl expired
  state := rfl

theorem Course.last (early : tempo.begins interval number < timeout)
    (holds : heldAt evaluate initial number = true) :
    Course evaluate initial timeout interval tempo start number 1
      ⟨true, start, [⟨start + tempo.begins interval number, true⟩],
        start + tempo.begins interval number + tempo.evaluation number,
        stateAfter evaluate initial (number + 1)⟩ where
  started := rfl
  visits := by simp [holds]
  inTime := by
    intro n hle hlt
    obtain rfl : n = number := by omega
    exact early
  fails := by omega
  ends := .succeeded number _ rfl (Nat.le_refl number) rfl holds rfl
  state := rfl

/-- One more evaluation before the others, which fails. -/
theorem Course.after {count : Nat} {r : Report σ} (early : tempo.begins interval number < timeout)
    (failed : heldAt evaluate initial number = false)
    (h : Course evaluate initial timeout interval tempo start (number + 1) count r) :
    Course evaluate initial timeout interval tempo start number (count + 1)
      (r.after ⟨start + tempo.begins interval number, false⟩) := by
  have hcount : number + 1 + count = number + (count + 1) := by omega
  have from_next : ∀ n, number ≤ n → n ≠ number → number + 1 ≤ n := by omega
  refine ⟨h.started, ?_, ?_, ?_, ?_, ?_⟩
  · rw [Report.after, h.visits, List.range'_succ, List.map_cons, failed]
  · intro n hle hlt
    by_cases hn : n = number
    · rw [hn]
      exact early
    · exact h.inTime n (from_next n hle hn) (by omega)
  · intro n hle hlt
    by_cases hn : n = number
    · rw [hn]
      exact failed
    · exact h.fails n (from_next n hle hn) (by omega)
  · rcases h.ends with ⟨last, _, hends, hle, hsatisfied, hholds, hfinish⟩ |
      ⟨_, hsatisfied, hfails, hfinish, hover⟩
    · exact .succeeded last _ (by omega) (by omega) hsatisfied hholds hfinish
    · rw [hcount] at hfinish hover
      refine .timedOut _ hsatisfied ?_ hfinish hover
      intro n hle hlt
      by_cases hn : n = number
      · rw [hn]
        exact failed
      · exact hfails n (from_next n hle hn) (by omega)
  · rw [← hcount]
    exact h.state

variable (evaluate initial timeout tempo start) in
/-- The rounds from any number on make the evaluations from that number on. -/
theorem rounds_course (positive : 0 < interval) (number : Nat) :
    ∃ count, Course evaluate initial timeout interval tempo start number count
      (rounds timeout interval positive tempo evaluate start number
        (start + tempo.begins interval number) (stateAfter evaluate initial number)) := by
  -- Every round brings the time closer to the timeout, by the interval at least.
  induction hleft : timeout - tempo.begins interval number using Nat.strong_induction_on
    generalizing number with
  | _ left ih =>
      rw [rounds, Nat.add_sub_cancel_left]
      split
      case isFalse hover => exact ⟨0, .none (by omega)⟩
      case isTrue early =>
          dsimp only
          split
          case isTrue hholds => exact ⟨1, .last early hholds⟩
          case isFalse hfails =>
              have hnext : start + tempo.begins interval (number + 1) =
                  start + tempo.begins interval number + tempo.evaluation number + interval +
                    tempo.overshoot (number + 1) := by
                rw [Tempo.begins]
                omega
              obtain ⟨count, hcourse⟩ := ih _ (by omega) (number + 1) rfl
              rw [hnext] at hcourse
              exact ⟨count + 1, hcourse.after early (Bool.eq_false_iff.mpr hfails)⟩

/-! ## Another delay -/

/-- The same report, of a poll whose delay was over at another time. -/
def Report.startingAt (r : Report σ) (start : Nat) : Report σ where
  satisfied := r.satisfied
  start
  visits := r.visits.map fun visit => { visit with time := start + (visit.time - r.start) }
  finish := start + (r.finish - r.start)
  state := r.state

theorem start_rounds (positive : 0 < interval) (now : Nat) (state : σ) :
    (rounds timeout interval positive tempo evaluate start number now state).start = start := by
  fun_induction rounds timeout interval positive tempo evaluate start number now state with
  | case1 => rfl
  | case2 number now state early result failed ih => exact ih
  | case3 => rfl

variable (evaluate timeout start tempo number) in
/-- The rounds depend on the time since the end of the delay, and not on when that was. -/
theorem rounds_startingAt (positive : 0 < interval) (start' elapsed : Nat) (state : σ) :
    rounds timeout interval positive tempo evaluate start' number (start' + elapsed) state =
      (rounds timeout interval positive tempo evaluate start number (start + elapsed)
        state).startingAt start' := by
  induction hleft : timeout - elapsed using Nat.strong_induction_on
    generalizing number elapsed state with
  | _ left ih =>
      rw [rounds, rounds, Nat.add_sub_cancel_left, Nat.add_sub_cancel_left]
      split
      case isFalse => simp [Report.startingAt]
      case isTrue early =>
          dsimp only
          split
          case isTrue => simp [Report.startingAt, Nat.add_assoc]
          case isFalse =>
              simp only [Nat.add_assoc] at ih ⊢
              rw [ih _ (by omega) _ _ _ rfl]
              simp [Report.startingAt, Report.after, start_rounds]

/-- A poll with an interval ends with a report.  Another delay changes nothing but the time at which
it is over, and with it those of the evaluations. -/
theorem run_course {schedule : Schedule} (positive : 0 < schedule.interval.nanoseconds)
    (tempo : Tempo) (evaluate : Nat → σ → Bool × σ) (initial : σ) :
    ∃ r count, run schedule tempo evaluate initial = .ok r ∧
      (∀ delay, run { schedule with delay } tempo evaluate initial =
        .ok (r.startingAt (tempo.start delay))) ∧
      Course evaluate initial schedule.timeout.nanoseconds schedule.interval.nanoseconds tempo
        (tempo.start schedule.delay) 0 count r := by
  obtain ⟨count, course⟩ := rounds_course evaluate initial schedule.timeout.nanoseconds
    (tempo.start schedule.delay) tempo positive 0
  refine ⟨_, count, ?_, fun delay => ?_, course⟩
  · rw [run, dif_pos positive]
    rfl
  · have hmoved := rounds_startingAt evaluate schedule.timeout.nanoseconds
      (tempo.start schedule.delay) 0 tempo positive (tempo.start delay) 0 initial
    rw [run, dif_pos positive]
    exact congrArg Except.ok hmoved

namespace Course

variable {count : Nat} {r : Report σ}

theorem length_visits (h : Course evaluate initial timeout interval tempo start number count r) :
    r.visits.length = count := by
  rw [h.visits, List.length_map, List.length_range']

/-- Only the last evaluation can succeed, and then the poll tells so. -/
theorem of_held (h : Course evaluate initial timeout interval tempo start number count r) {n : Nat}
    (hle : number ≤ n) (hlt : n < number + count) (holds : heldAt evaluate initial n = true) :
    r.satisfied = true ∧ number + count = n + 1 ∧
      r.finish = start + tempo.begins interval n + tempo.evaluation n := by
  rcases h.ends with ⟨last, _, hends, -, hsatisfied, -, hfinish⟩ | ⟨_, -, hfails, -, -⟩
  · have hlast : n = last := by
      by_contra hne
      have hfails := h.fails n hle (by omega)
      rw [holds] at hfails
      cases hfails
    rw [hlast]
    exact ⟨hsatisfied, hends, hfinish⟩
  · have hno := hfails n hle hlt
    rw [holds] at hno
    cases hno

theorem satisfied_iff (h : Course evaluate initial timeout interval tempo start number count r) :
    r.satisfied = true ↔
      ∃ n, number ≤ n ∧ n < number + count ∧ heldAt evaluate initial n = true := by
  constructor
  · intro htrue
    rcases h.ends with ⟨last, _, hends, hle, -, hholds, -⟩ | ⟨_, hfalse, -, -, -⟩
    · exact ⟨last, hle, by omega, hholds⟩
    · rw [htrue] at hfalse
      cases hfalse
  · rintro ⟨n, hle, hlt, holds⟩
    exact (h.of_held hle hlt holds).1

/-- A poll gives up only when the time is over. -/
theorem timeout_le (h : Course evaluate initial timeout interval tempo start number count r)
    (hfalse : r.satisfied = false) :
    timeout ≤ tempo.begins interval (number + count) ∧
      r.finish = start + tempo.begins interval (number + count) := by
  rcases h.ends with ⟨_, _, -, -, htrue, -, -⟩ | ⟨_, -, -, hfinish, hover⟩
  · rw [hfalse] at htrue
    cases htrue
  · exact ⟨hover, hfinish⟩

/-- There are not more evaluations than intervals that begin before the timeout. -/
theorem count_le (h : Course evaluate initial timeout interval tempo start 0 count r)
    (positive : 0 < interval) : count ≤ timeout ⌈/⌉ interval := by
  by_contra hmore
  have hlast := h.inTime (count - 1) (Nat.zero_le _) (by omega)
  have hslept := tempo.mul_le_begins interval (count - 1)
  have hceil : timeout ⌈/⌉ interval ≤ count - 1 := by omega
  rw [ceilDiv_le_iff_le_mul positive, Nat.mul_comm] at hceil
  omega

/-- With an exact clock the evaluation of a number is made if it begins before the timeout and none
before it succeeds. -/
theorem exact_of_first (h : Course evaluate initial timeout interval .exact start 0 count r) {k : Nat}
    (holds : heldAt evaluate initial k = true)
    (first : ∀ n < k, heldAt evaluate initial n = false) :
    (k * interval < timeout → r.satisfied = true ∧ count = k + 1) ∧
      (timeout ≤ k * interval → r.satisfied = false ∧ timeout ≤ count * interval) := by
  have hsuccess : r.satisfied = true → count = k + 1 ∧ k * interval < timeout := by
    intro htrue
    obtain ⟨n, -, hlt, hn⟩ := h.satisfied_iff.mp htrue
    obtain ⟨-, hcount, -⟩ := h.of_held (Nat.zero_le n) hlt hn
    have hnk : n = k := by
      have hle : k ≤ n := Nat.le_of_not_lt fun hlt => by simp [first n hlt] at hn
      by_contra hne
      have hno := h.fails k (Nat.zero_le k) (by omega)
      rw [holds] at hno
      cases hno
    have hearly := h.inTime n (Nat.zero_le n) hlt
    rw [Tempo.begins_exact, hnk] at hearly
    exact ⟨by omega, hearly⟩
  have hfailure : r.satisfied = false → count ≤ k ∧ timeout ≤ count * interval := by
    intro hfalse
    obtain ⟨hover, -⟩ := h.timeout_le hfalse
    rw [Tempo.begins_exact, Nat.zero_add] at hover
    refine ⟨?_, hover⟩
    by_contra hmore
    rw [h.satisfied_iff.mpr ⟨k, Nat.zero_le k, by omega, holds⟩] at hfalse
    cases hfalse
  constructor
  · intro hearly
    cases hsatisfied : r.satisfied with
    | true => exact ⟨rfl, (hsuccess hsatisfied).1⟩
    | false =>
        obtain ⟨hle, hover⟩ := hfailure hsatisfied
        have hslept := Nat.mul_le_mul_right interval hle
        omega
  · intro hlate
    cases hsatisfied : r.satisfied with
    | true =>
        have hearly := (hsuccess hsatisfied).2
        omega
    | false => exact ⟨rfl, (hfailure hsatisfied).2⟩

end Course

end Course

/-! ## Conditions -/

/-- An evaluation shows that the condition holds: it does not panic, and its answer is a yes, not an
error. -/
def Evaluation.Succeeds {α : Type u} [Check α] (e : Evaluation α) : Prop :=
  ∃ answer, e = .answered answer ∧ check answer = .ok true

theorem Evaluation.holds_iff {α : Type u} [Check α] {e : Evaluation α} :
    e.holds = true ↔ e.Succeeds := by
  cases e with
  | answered answer =>
      rw [holds, Succeeds]
      rcases hcheck : check answer with text | held
      · simp [hcheck]
      · simp [hcheck]
  | panicked panic => simp [holds, Succeeds]

section Wait

variable {α : Type u} [Check α]

theorem heldAt_eq_true_iff {condition : Nat → Evaluation α} {n : Nat} :
    heldAt (fun number _ => ((condition number).holds, ())) () n = true ↔
      (condition n).Succeeds :=
  Evaluation.holds_iff

theorem heldAt_eq_false_iff {condition : Nat → Evaluation α} {n : Nat} :
    heldAt (fun number _ => ((condition number).holds, ())) () n = false ↔
      ¬(condition n).Succeeds := by
  rw [← heldAt_eq_true_iff, Bool.not_eq_true]

/-- A poll with an interval always ends with a report, whatever the evaluations come to, however
long they take and however long the sleeps are.  It evaluates the condition only before the timeout,
counted from the end of the delay, and with another delay it does the same at other times.  It tells
that the condition holds if and only if an evaluation succeeds; that is the last one, and no sleep
follows.  Otherwise the time is over.  Where evaluations take no time and sleeps are exact, the
first success counts if the intervals before it are shorter than the timeout. -/
theorem wait_evaluates_until (schedule : Schedule) (positive : 0 < schedule.interval.nanoseconds)
    (tempo : Tempo) (condition : Nat → Evaluation α) :
    let timeout := schedule.timeout.nanoseconds
    let interval := schedule.interval.nanoseconds
    ∃ report, wait schedule tempo condition = .ok report ∧
      report.start = tempo.start schedule.delay ∧
      (∀ delay, wait { schedule with delay } tempo condition =
        .ok (report.startingAt (tempo.start delay))) ∧
      (∀ visit ∈ report.visits,
        report.start ≤ visit.time ∧ visit.time - report.start < timeout) ∧
      (report.visits = (List.range report.visits.length).map fun n =>
        ⟨report.start + tempo.begins interval n, (condition n).holds⟩) ∧
      (report.satisfied = true ↔ ∃ n < report.visits.length, (condition n).Succeeds) ∧
      (∀ n < report.visits.length, (condition n).Succeeds → report.visits.length = n + 1 ∧
        report.finish = report.start + tempo.begins interval n + tempo.evaluation n) ∧
      (report.satisfied = false → timeout ≤ report.finish - report.start ∧
        report.finish = report.start + tempo.begins interval report.visits.length) ∧
      report.visits.length ≤ timeout ⌈/⌉ interval ∧
      (tempo = .exact → ∀ k, (condition k).Succeeds → (∀ n < k, ¬(condition n).Succeeds) →
        (report.satisfied = true ∧ report.visits.length = k + 1 ↔ k * interval < timeout) ∧
        (¬k * interval < timeout → report.satisfied = false ∧
          report.visits.length = timeout ⌈/⌉ interval)) := by
  intro timeout interval
  obtain ⟨report, count, hwait, hdelay, course⟩ :=
    run_course positive tempo (fun n _ => ((condition n).holds, ())) ()
  have hcount := course.length_visits
  have hstart := course.started
  refine ⟨report, hwait, hstart, hdelay, ?_, ?_, ?_, ?_, ?_, ?_, ?_⟩
  · intro visit hvisit
    rw [course.visits, List.mem_map] at hvisit
    obtain ⟨n, hn, rfl⟩ := hvisit
    rw [List.mem_range'_1] at hn
    rw [hstart, Nat.add_sub_cancel_left]
    exact ⟨Nat.le_add_right _ _, course.inTime n hn.1 hn.2⟩
  · rw [hcount, hstart, List.range_eq_range']
    exact course.visits
  · rw [hcount, course.satisfied_iff]
    simp [heldAt_eq_true_iff]
  · intro n hlt hsucceeds
    rw [hcount] at hlt ⊢
    obtain ⟨-, hlast, hfinish⟩ := course.of_held (Nat.zero_le n) (by omega)
      (heldAt_eq_true_iff.mpr hsucceeds)
    rw [hstart]
    exact ⟨by omega, hfinish⟩
  · intro hfalse
    obtain ⟨hover, hfinish⟩ := course.timeout_le hfalse
    rw [Nat.zero_add] at hover hfinish
    rw [hstart, hcount, hfinish, Nat.add_sub_cancel_left]
    exact ⟨hover, rfl⟩
  · rw [hcount]
    exact course.count_le positive
  · rintro rfl k hsucceeds hfirst
    obtain ⟨hearly, hlate⟩ := course.exact_of_first (heldAt_eq_true_iff.mpr hsucceeds)
      fun n hn => heldAt_eq_false_iff.mpr (hfirst n hn)
    rw [hcount]
    refine ⟨⟨fun htold => ?_, hearly⟩, fun hnot => ?_⟩
    · by_contra hnot
      rw [(hlate (Nat.le_of_not_lt hnot)).1] at htold
      cases htold.1
    · obtain ⟨hfalse, hover⟩ := hlate (Nat.le_of_not_lt hnot)
      have hceil : timeout ⌈/⌉ interval ≤ count := by
        rw [ceilDiv_le_iff_le_mul positive, Nat.mul_comm]
        exact hover
      exact ⟨hfalse, Nat.le_antisymm (course.count_le positive) hceil⟩

/-- An error and a panic come before the success, which begins in the last interval. -/
theorem wait_evaluates_until_third :
    let schedule : Schedule := ⟨.ofMilliseconds 250, .ofMilliseconds 100, .ofMilliseconds 1000⟩
    let condition : Nat → Evaluation (Except String Bool) := fun n =>
      if n = 0 then .answered (.error "down") else
      if n = 1 then .panicked (.text "boom") else .answered (.ok true)
    0 < schedule.interval.nanoseconds ∧ ∃ report, wait schedule .exact condition = .ok report ∧
      report.satisfied = true ∧ report.visits.length = 3 := by
  intro schedule condition
  have positive : 0 < schedule.interval.nanoseconds := by decide
  refine ⟨positive, ?_⟩
  obtain ⟨report, hwait, -, -, -, -, -, -, -, -, hexact⟩ :=
    wait_evaluates_until schedule positive .exact condition
  have third : (condition 2).Succeeds := ⟨.ok true, rfl, rfl⟩
  have first : ∀ n < 2, ¬(condition n).Succeeds := by
    intro n hn
    rw [← Evaluation.holds_iff]
    interval_cases n <;> decide
  exact ⟨report, hwait, (hexact rfl 2 third first).1.mpr (by decide)⟩

end Wait

end Testbed.Poll
