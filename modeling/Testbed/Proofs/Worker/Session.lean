import Testbed.Duration
import Testbed.Worker.Basic

/-!
# A worker and the owner of its handle

The thread of a worker and the owner of its handle take turns in any order.  A join waits while the
worker is running, and the owner does nothing else meanwhile; it ends when the outcome is found
published, or when its time is over.  A session keeps everything that happens in a record: what the
thread does, the publication of the outcome, and the answers that the owner gets.

`course` is what should happen on the thread, and `expected` is the answer that is right after a
record; neither looks at the state of the thread.
-/

namespace Testbed.Worker

universe u

variable {T : Type u}

/-! ## Setting up -/

/-- What is set on a worker before its start. -/
inductive Setting where
  | errorHandler (handler : Handler)
  | exitHandler (handler : Handler)

namespace Setting

def apply (w : Worker T) : Setting → Worker T
  | errorHandler handler => w.setErrorHandler handler
  | exitHandler handler => w.setExitHandler handler

def errorHandler? : Setting → Option Handler
  | errorHandler handler => some handler
  | exitHandler _ => none

def exitHandler? : Setting → Option Handler
  | errorHandler _ => none
  | exitHandler handler => some handler

end Setting

/-- A worker on which settings are made one after the other. -/
def configured (name : String) (body : Ending T) (settings : List Setting) : Worker T :=
  settings.foldl Setting.apply { name, body }

def lastErrorHandler (settings : List Setting) : Option Handler :=
  (settings.filterMap Setting.errorHandler?).getLast?

def lastExitHandler (settings : List Setting) : Option Handler :=
  (settings.filterMap Setting.exitHandler?).getLast?

/-! ## What should happen on the thread -/

/-- The call of the exit handler, if there is one. -/
def exitCourse (onExit : Option Handler) : List Event :=
  (onExit.map fun handler => .exitHandled handler.label).toList

/-- What follows the body.  An error handler that panics keeps the exit handler from being
called. -/
def handlerCourse (onError onExit : Option Handler) : Except Failure T → List Event
  | .ok _ => exitCourse onExit
  | .error f =>
    match onError with
    | none => exitCourse onExit
    | some handler =>
      .errorHandled handler.label f :: if handler.panics then [] else exitCourse onExit

/-- What happens on the thread of a worker, from its begin to its end. -/
def course (outcome : Except Failure T) (onError onExit : Option Handler) : List Event :=
  .bodyRun :: handlerCourse onError onExit outcome

/-! ## What the owner does -/

/-- What the owner of a handle can call.  A check is what a barrier does with a worker. -/
inductive Call where
  | isAlive
  | join (timeout : Option Duration)
  | joinSuppressed (timeout : Option Duration)
  | takeOutput
  | check
  deriving DecidableEq

def Call.waits : Call → Bool
  | .join _ | .joinSuppressed _ => true
  | _ => false

/-- Whether a call can only end when the worker has. -/
def Call.waitsForever : Call → Bool
  | .join none | .joinSuppressed none => true
  | _ => false

inductive Answer (T : Type u) where
  | alive (running : Bool)
  | joined (result : Except Failure Unit)
  | suppressed (failure : Option Failure)
  | output (value : Option T)
  | checked (found : Handle.Status)

/-- The answer of a call that ends now, and the handle after it. -/
def Call.end (h : Handle T) : Call → Answer T × Handle T
  | .isAlive => (.alive h.isAlive, h)
  | .join _ => (.joined (h.joined.elim (.ok ()) .error), h)
  | .joinSuppressed _ => (.suppressed h.joined, h)
  | .takeOutput => (.output h.takeOutput.1, h.takeOutput.2)
  | .check => (.checked h.status, h)

/-! ## The record -/

inductive Entry (T : Type u) where
  | event (e : Event)
  | published
  | answered (call : Call) (answer : Answer T)

namespace Entry

/-- Whether the thread has made an entry, and not the owner. -/
def isOfThread : Entry T → Bool
  | answered _ _ => false
  | _ => true

def isPublished : Entry T → Bool
  | published => true
  | _ => false

def isTake : Entry T → Bool
  | answered .takeOutput _ => true
  | _ => false

end Entry

def isOver (record : List (Entry T)) : Bool := record.any Entry.isPublished

/-- Whether an output has been asked for after the publication. -/
def isTaken (record : List (Entry T)) : Bool :=
  (record.dropWhile (!·.isPublished)).any Entry.isTake

def failure? : Except Failure T → Option Failure
  | .ok _ => none
  | .error f => some f

/-- What a barrier finds of a worker with an outcome. -/
def found : Except Failure T → Handle.Status
  | .ok _ => .succeeded
  | .error f => .failed f

/-- The answer that is right after a record, of a worker whose body has an outcome. -/
def expected (outcome : Except Failure T) (record : List (Entry T)) : Call → Answer T
  | .isAlive => .alive (!isOver record)
  | .join _ => .joined (if isOver record then outcome.map fun _ => () else .ok ())
  | .joinSuppressed _ => .suppressed (if isOver record then failure? outcome else none)
  | .takeOutput =>
    .output (if isOver record && !isTaken record then outcome.toOption else none)
  | .check => .checked (if isOver record then found outcome else .running)

/-! ## Turns -/

/-- A worker that has been started, with the owner of its handle. -/
structure Session (T : Type u) where
  handle : Handle T
  /-- The join in which the owner waits. -/
  waiting : Option Call := none
  record : List (Entry T) := []

/-- What can happen next: the thread makes a step, the owner calls something, or an owner that waits
wakes up, because its time is over or for any other reason. -/
inductive Action where
  | thread
  | call (call : Call)
  | wake (late : Bool)
  deriving DecidableEq

/-- What one step of the thread adds to a record. -/
def Handle.shown (h : Handle T) : List (Entry T) :=
  (h.advance.events.drop h.events.length).map .event ++
    if h.isAlive && !h.advance.isAlive then [.published] else []

namespace Session

def thread (s : Session T) : Session T :=
  { s with handle := s.handle.advance, record := s.record ++ s.handle.shown }

/-- A call comes to its end. -/
def finish (s : Session T) (call : Call) : Session T where
  handle := (call.end s.handle).2
  waiting := none
  record := s.record ++ [.answered call (call.end s.handle).1]

/-- The owner calls something, unless it waits. -/
def call (s : Session T) (call : Call) : Session T :=
  match s.waiting with
  | some _ => s
  | none =>
    if call.waits && s.handle.isAlive then { s with waiting := some call } else s.finish call

/-- The owner wakes up from its wait. -/
def wake (s : Session T) (late : Bool) : Session T :=
  match s.waiting with
  | none => s
  | some call =>
    if s.handle.isAlive && !(late && !call.waitsForever) then s else s.finish call

def act (s : Session T) : Action → Session T
  | .thread => s.thread
  | .call c => s.call c
  | .wake late => s.wake late

def run (s : Session T) (actions : List Action) : Session T := actions.foldl act s

end Session

end Testbed.Worker
