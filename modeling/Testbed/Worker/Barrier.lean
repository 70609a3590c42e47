import Testbed.Duration
import Testbed.Worker.Basic

/-!
# Waiting for workers

A barrier waits until all workers have succeeded.  It looks at every worker that was running when it
last looked, and then sleeps, in turns.  The first failure it finds ends the wait.  After each sleep
it looks at the clock, and if the deadline is over it gives up without looking at the workers again.

`passes` is the barrier for any behaviour of the workers and of the clock, given by a `Watch`.
`joinAll` is the one in which workers finish at given times.
-/

namespace Testbed.Worker.Barrier

open Handle (Status)

/-- What the barrier finds: the status of each worker in each pass, and whether the deadline is over
after the sleep that follows a pass. -/
structure Watch where
  status : Nat → Nat → Status
  expired : Nat → Bool

/-- A worker in the queue: its number, and its name. -/
structure Place where
  number : Nat
  name : String
  deriving DecidableEq

/-- Look at the workers in a queue, in order.  Those still running go to the back of the queue, so
they keep their order. -/
def sweep (status : Nat → Status) : List Place → Except Failure (List Place)
  | [] => .ok []
  | place :: rest =>
    match status place.number with
    | .failed f => .error f
    | .running => (sweep status rest).map (place :: ·)
    | .succeeded => sweep status rest

/-- How a wait ends.  One that is cut short after a number of passes is still waiting. -/
inductive Verdict where
  | allSucceeded
  | failed (f : Failure)
  | timedOut (running : List Place)
  | waiting (running : List Place)
  deriving DecidableEq

/-- The passes from the one of the given number on; `limit` bounds how many there are. -/
def passes (watch : Watch) : (limit : Nat) → (number : Nat) → List Place → Verdict
  | 0, _, queue => .waiting queue
  | limit + 1, number, queue =>
    match sweep (watch.status number) queue with
    | .error f => .failed f
    | .ok [] => .allSucceeded
    | .ok running =>
      if watch.expired number then .timedOut running
      else passes watch limit (number + 1) running

/-- The places of some workers, in their order. -/
def places (names : List String) : List Place :=
  names.zipIdx.map fun (name, number) => { number, name }

/-- The sleep between two passes. -/
def interval : Duration := .ofMilliseconds 100

/-- The clock: what it shows at first, and how much each sleep takes beyond the interval. -/
structure Clock where
  start : Nat
  overshoot : Nat → Nat

/-- The time of a pass, from the first one on.  Passes take no time themselves. -/
def Clock.passTime (clock : Clock) : Nat → Nat
  | 0 => 0
  | number + 1 => clock.passTime number + interval.nanoseconds + clock.overshoot number

/-- The greatest second that a clock can show. -/
def greatestSecond : Nat := 2 ^ 63 - 1

/-- The deadline on the clock, unless it is beyond what a clock can show. -/
def Clock.deadline? (clock : Clock) (timeout : Duration) : Option Nat :=
  let time := clock.start + timeout.nanoseconds
  if time / Duration.perSecond ≤ greatestSecond then some time else none

/-- A worker that is waited for: how it finishes, and when, counted from the begin of the wait; one
without a time never does. -/
structure Entrant where
  name : String
  outcome : Except Failure Unit
  time : Option Nat

/-- What is found of a worker at a time. -/
def Entrant.statusAt (e : Entrant) (now : Nat) : Status :=
  match e.time with
  | none => .running
  | some time =>
    if time ≤ now then
      match e.outcome with
      | .ok () => .succeeded
      | .error f => .failed f
    else .running

/-- What the barrier finds when workers finish at given times. -/
def Watch.ofClock (clock : Clock) (timeout : Duration) (entrants : List Entrant) : Watch where
  status number worker :=
    match entrants[worker]? with
    | some e => e.statusAt (clock.passTime number)
    | none => .succeeded
  expired number :=
    match clock.deadline? timeout with
    | some deadline => deadline < clock.start + clock.passTime (number + 1)
    | none => false

/-- The time of the last worker that finishes. -/
def latest (entrants : List Entrant) : Nat :=
  (entrants.filterMap (·.time)).foldl max 0

/-- A number of passes after which nothing new can happen. -/
def passLimit (clock : Clock) (timeout : Duration) (entrants : List Entrant) : Nat :=
  let last := match clock.deadline? timeout with
    | some _ => max timeout.nanoseconds (latest entrants)
    | none => latest entrants
  last / interval.nanoseconds + 2

/-- Wait for workers that finish at given times. -/
def joinAll (clock : Clock) (timeout : Duration) (entrants : List Entrant) : Verdict :=
  passes (.ofClock clock timeout entrants) (passLimit clock timeout entrants) 0
    (places (entrants.map (·.name)))

/-- The error of a wait that ended without success. -/
def Verdict.error? : Verdict → Option Error
  | failed f => some (.failed f)
  | timedOut running => some (.timedOut (running.map (·.name)))
  | _ => none

end Testbed.Worker.Barrier
