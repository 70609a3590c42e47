import Testbed.Text.Quoted
import Testbed.Text.Utf8
import Testbed.Worker.Failure

/-!
# Workers

A worker runs its body once, on a thread of its own.  When the body has failed, the error handler is
called; when it is over in either way, the exit handler is called; and only then is the outcome
published.  A handler that panics ends the thread early, and the outcome is published all the same.

`Handle.advance` is one step of the thread, and the other functions on handles are what the owner of
a handle can do between two steps.
-/

namespace Testbed

/-- A handler: what is recorded when it is called, and whether it panics. -/
structure Worker.Handler where
  label : String
  panics : Bool := false
  deriving DecidableEq

/-- A worker that has not been started. -/
structure Worker (T : Type u) where
  name : String
  body : Worker.Ending T
  errorHandler : Option Worker.Handler := none
  exitHandler : Option Worker.Handler := none

namespace Worker

variable {T : Type u}

/-- Set the error handler, in place of the one set before. -/
def setErrorHandler (w : Worker T) (handler : Handler) : Worker T :=
  { w with errorHandler := some handler }

/-- Set the exit handler, in place of the one set before. -/
def setExitHandler (w : Worker T) (handler : Handler) : Worker T :=
  { w with exitHandler := some handler }

/-- A worker as it is shown to a programmer. -/
def shown (w : Worker T) : String :=
  let flag (handler : Option Handler) : String := if handler.isSome then "true" else "false"
  "Worker \x7b name: " ++ Text.quoted w.name ++ ", error_handler: " ++ flag w.errorHandler
    ++ ", exit_handler: " ++ flag w.exitHandler ++ " \x7d"

/-- What happens on the thread of a worker and can be seen from outside. -/
inductive Event where
  | bodyRun
  | errorHandled (label : String) (f : Failure)
  | exitHandled (label : String)
  deriving DecidableEq

/-- How far the thread of a worker has come. -/
inductive Stage (T : Type u) where
  | ready
  /-- The body is over; the error handler is next, if it failed. -/
  | ended (outcome : Except Failure T)
  /-- The error handler is not called any more; the exit handler is next. -/
  | handled (outcome : Except Failure T)
  /-- No handler is called any more; the outcome is published next. -/
  | closing (outcome : Except Failure T)
  /-- The outcome is published; a value stays until it is taken. -/
  | finished (outcome : Except Failure (Option T))

/-- A worker that has been started. -/
structure Handle (T : Type u) where
  worker : Worker T
  stage : Stage T := .ready
  events : List Event := []

/-- The panic of a thread that cannot have the name of its worker: a NUL is in it. -/
def namePanic? (name : String) : Option Panic :=
  let bytes := Text.Utf8.encode name
  match bytes.findIdx? (· == 0) with
  | none => none
  | some position =>
    some (.text ("thread name may not contain interior null bytes: NulError("
      ++ toString position ++ ", [" ++ ", ".intercalate (bytes.map fun b => toString b.toNat)
      ++ "])"))

/-- Start a worker. -/
def start (w : Worker T) : Except Panic (Handle T) :=
  match namePanic? w.name with
  | some p => .error p
  | none => .ok { worker := w }

namespace Handle

/-- Where a handler leaves the thread: one that panics is the last. -/
def after (handler : Handler) (next : Except Failure T → Stage T) (outcome : Except Failure T) :
    Stage T :=
  if handler.panics then .closing outcome else next outcome

/-- One step of the thread. -/
def advance (h : Handle T) : Handle T :=
  match h.stage with
  | .ready =>
    { h with
      stage := .ended (h.worker.body.outcome h.worker.name)
      events := h.events ++ [.bodyRun] }
  | .ended (.error f) =>
    match h.worker.errorHandler with
    | some handler =>
      { h with
        stage := after handler .handled (.error f)
        events := h.events ++ [.errorHandled handler.label f] }
    | none => { h with stage := .handled (.error f) }
  | .ended (.ok v) => { h with stage := .handled (.ok v) }
  | .handled outcome =>
    match h.worker.exitHandler with
    | some handler =>
      { h with
        stage := .closing outcome
        events := h.events ++ [.exitHandled handler.label] }
    | none => { h with stage := .closing outcome }
  | .closing outcome => { h with stage := .finished (outcome.map some) }
  | .finished _ => h

/-- Let the thread run to its end, which takes at most four steps. -/
def finish (h : Handle T) : Handle T := h.advance.advance.advance.advance

/-- What the owner of a handle can find. -/
inductive Status where
  | running
  | succeeded
  | failed (f : Failure)
  deriving DecidableEq

/-- What the owner finds now. -/
def status (h : Handle T) : Status :=
  match h.stage with
  | .finished (.ok _) => .succeeded
  | .finished (.error f) => .failed f
  | _ => .running

/-- Whether the worker is still running, its handlers included. -/
def isAlive (h : Handle T) : Bool := h.status == .running

/-- What a join gives at the end of its wait: the failure of a worker that has failed.  A worker
that is still running when the time is over gives nothing, and neither does one that succeeded. -/
def joined (h : Handle T) : Option Failure :=
  match h.status with
  | .failed f => some f
  | _ => none

/-- Take the value of a worker that has succeeded.  It is there once. -/
def takeOutput (h : Handle T) : Option T × Handle T :=
  match h.stage with
  | .finished (.ok (some v)) => (some v, { h with stage := .finished (.ok none) })
  | _ => (none, h)

end Handle

end Worker

end Testbed
