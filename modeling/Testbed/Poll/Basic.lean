import Testbed.Duration
import Testbed.Poll.Check

/-!
# Polling

A condition is evaluated again and again, with an interval between two evaluations, until it holds
or the time is over.  The clock runs from the call on, but the time counts from the end of the first
delay only, and it is looked at before each evaluation.  How long evaluations take and by how much a
sleep exceeds its length is given by a `Tempo`, so what follows holds for every course of the clock.
-/

namespace Testbed.Poll

/-- The timing of a poll. -/
structure Schedule where
  timeout : Duration
  interval : Duration
  delay : Duration

/-- The course of the clock, in nanoseconds: the length of the evaluation of each number, and how
much the sleep of each number takes beyond its length.  The delay is sleep number zero, and the
sleep after an evaluation has the number of the next one. -/
structure Tempo where
  evaluation : Nat → Nat
  overshoot : Nat → Nat

/-- Evaluations that take no time, and sleeps that are exact. -/
def Tempo.exact : Tempo := ⟨fun _ => 0, fun _ => 0⟩

/-- When a delay is over, counted from the call.  There is no sleep for no delay. -/
def Tempo.start (tempo : Tempo) (delay : Duration) : Nat :=
  if delay = .zero then 0 else delay.nanoseconds + tempo.overshoot 0

/-- One evaluation: when it began, counted from the call, and whether the condition held. -/
structure Visit where
  time : Nat
  held : Bool

/-- What a poll tells: whether the condition held at last, when the delay was over, all evaluations
in order, when the poll was over, and what the evaluations left behind. -/
structure Report (σ : Type u) where
  satisfied : Bool
  start : Nat
  visits : List Visit
  finish : Nat
  state : σ

/-- Put an evaluation in front of a report. -/
def Report.after {σ : Type u} (r : Report σ) (visit : Visit) : Report σ :=
  { r with visits := visit :: r.visits }

/-- The rounds of a poll from the one of the given number on, which begins now.  An evaluation may
act on a state. -/
def rounds {σ : Type u} (timeout interval : Nat) (positive : 0 < interval) (tempo : Tempo)
    (evaluate : Nat → σ → Bool × σ) (start number now : Nat) (state : σ) : Report σ :=
  if now - start < timeout then
    let result := evaluate number state
    if result.1 then
      ⟨true, start, [⟨now, true⟩], now + tempo.evaluation number, result.2⟩
    else
      (rounds timeout interval positive tempo evaluate start (number + 1)
        (now + tempo.evaluation number + interval + tempo.overshoot (number + 1)) result.2).after
          ⟨now, false⟩
  else ⟨false, start, [], now, state⟩
termination_by start + timeout - now

/-- Why a poll does not begin. -/
inductive Fault where
  | intervalZero
  deriving DecidableEq

/-- The wording of the fault. -/
def Fault.message : Fault → String
  | intervalZero => "poll interval must be greater than zero"

/-- Poll a condition that acts on a state. -/
def run {σ : Type u} (schedule : Schedule) (tempo : Tempo) (evaluate : Nat → σ → Bool × σ)
    (state : σ) : Except Fault (Report σ) :=
  if positive : 0 < schedule.interval.nanoseconds then
    let start := tempo.start schedule.delay
    .ok (rounds schedule.timeout.nanoseconds schedule.interval.nanoseconds positive tempo evaluate
      start 0 start state)
  else .error .intervalZero

/-- Poll a condition whose evaluations are given by their numbers. -/
def wait {α : Type u} [Check α] (schedule : Schedule) (tempo : Tempo)
    (condition : Nat → Evaluation α) : Except Fault (Report Unit) :=
  run schedule tempo (fun number _ => ((condition number).holds, ())) ()

end Testbed.Poll
