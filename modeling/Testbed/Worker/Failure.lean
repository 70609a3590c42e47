import Testbed.ErrorChain
import Testbed.Panic

/-!
# Failures of workers

The body of a worker ends with a value, with an error or with a panic.  The last two make a failure,
which keeps what happened and tells on which worker.
-/

namespace Testbed.Worker

/-- How a body ends. -/
inductive Ending (T : Type u) where
  | value (v : T)
  | error (e : ErrorChain)
  | panic (p : Panic)

/-- What a failure comes from. -/
inductive Cause where
  | error (e : ErrorChain)
  | panic (p : Panic)
  deriving DecidableEq

/-- The failure of a worker. -/
structure Failure where
  worker : String
  cause : Cause
  deriving DecidableEq

namespace Failure

/-- The text of what happened: an error with all its causes, or the text of a panic. -/
def message (f : Failure) : String :=
  match f.cause with
  | .error e => e.full
  | .panic p => p.message

/-- Whether the failure comes from a panic. -/
def isPanic (f : Failure) : Bool :=
  match f.cause with
  | .error _ => false
  | .panic _ => true

/-- The text of the failure. -/
def text (f : Failure) : String :=
  "worker " ++ f.worker ++ (if f.isPanic then " panicked: " else " failed: ") ++ f.message

/-- The texts of the error that caused the failure, and of its causes; a panic has none. -/
def sources (f : Failure) : List String :=
  match f.cause with
  | .error e => e.texts
  | .panic _ => []

/-- The failure as an error with its causes. -/
def chain (f : Failure) : ErrorChain := ⟨f.text, f.sources⟩

end Failure

/-- The failure of an ending, if it is one. -/
def Ending.outcome {T : Type u} (worker : String) : Ending T → Except Failure T
  | value v => .ok v
  | error e => .error ⟨worker, .error e⟩
  | panic p => .error ⟨worker, .panic p⟩

/-- Why workers that are waited for give no result. -/
inductive Error where
  | failed (f : Failure)
  /-- The time is over, and these workers are still running. -/
  | timedOut (workers : List String)
  deriving DecidableEq

namespace Error

/-- The wording of an error. -/
def message : Error → String
  | failed f => f.text
  | timedOut workers => "timeout on waiting workers: [" ++ ", ".intercalate workers ++ "]"

/-- An error with its causes. -/
def chain : Error → ErrorChain
  | failed f => ⟨f.text, f.chain.texts⟩
  | timedOut workers => ⟨message (timedOut workers), []⟩

end Error

end Testbed.Worker
