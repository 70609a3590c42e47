import Testbed.Table
import Testbed.Worker.Barrier

/-!
# Running on many nodes

A target is run on every node of a list, each time on a worker with the name of the node.  When all
have succeeded, the values are entered in a table under these names; of several nodes with one name,
the last one counts.  A shared pointer to a node is a node of the same name.
-/

namespace Testbed.Worker.Parallel

variable {T : Type u} {N : Type v}

/-- What a target can be run on: it has a name. -/
class Named (N : Type v) where
  name : N → String

/-- A value behind a shared pointer. -/
structure Shared (N : Type v) where
  value : N

instance [Named N] : Named (Shared N) := ⟨fun pointer => Named.name pointer.value⟩

/-- A node that is given with its run: how the target ends on it, and when; without a time it never
does. -/
structure Node (T : Type u) where
  name : String
  body : Ending T
  time : Option Nat

instance : Named (Node T) := ⟨Node.name⟩

/-- The node as one that is waited for. -/
def Node.entrant (n : Node T) : Barrier.Entrant where
  name := n.name
  outcome := (n.body.outcome n.name).map fun _ => ()
  time := n.time

/-- The worker that runs a target on a node. -/
def workerOn [Named N] (target : N → Ending T) (n : N) : Worker T where
  name := Named.name n
  body := target n

/-- The value of a finished worker under its name. -/
def result? (h : Handle T) : Option (String × T) :=
  h.takeOutput.1.map fun v => (h.worker.name, v)

/-- The values of finished workers under their names. -/
def collect (handles : List (Handle T)) : Table T :=
  Table.ofList (handles.filterMap result?)

/-- How a run on many nodes ends. -/
inductive Report (T : Type u) where
  | values (t : Table T)
  | failed (e : Error)
  | panicked (p : Panic)
  | waiting

/-- What a run reports after its wait, from the workers at their end. -/
def conclude (handles : List (Handle T)) : Barrier.Verdict → Report T
  | .allSucceeded => .values (collect handles)
  | .failed f => .failed (.failed f)
  | .timedOut running => .failed (.timedOut (running.map (·.name)))
  | .waiting _ => .waiting

/-- The report of a run of a target on nodes, in which the wait for the workers has a verdict. -/
def reportOn [Named N] (target : N → Ending T) (nodes : List N) (verdict : Barrier.Verdict) :
    Report T :=
  match nodes.mapM fun n => (workerOn target n).start with
  | .error p => .panicked p
  | .ok handles => conclude (handles.map Handle.finish) verdict

/-- Run on all nodes. -/
def run (clock : Barrier.Clock) (timeout : Duration) (nodes : List (Node T)) : Report T :=
  reportOn Node.body nodes (Barrier.joinAll clock timeout (nodes.map Node.entrant))

end Testbed.Worker.Parallel
