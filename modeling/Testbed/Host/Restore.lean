import Testbed.Host.Basic

/-!
# Clean-up commands

Tests register commands that put a host back into order.  The teardown of a test takes its commands
off the list and runs all of them on the host, whatever becomes of the ones before.  Then it gives
the host some time to settle, if it is set up so.
-/

namespace Testbed.Host

/-- The commands registered for each test, in the order of their registration, and the time that a
host gets to settle after they have been run. -/
structure Restore where
  commands : Table (List String) := ∅
  settle : Option Duration := none

namespace Restore

/-- The commands that wait for the teardown of a test. -/
def pending (r : Restore) (test : String) : List String :=
  (r.commands.get? test).getD []

/-- Register a command for a test. -/
def push (r : Restore) (test command : String) : Restore :=
  { r with commands := r.commands.alter test [] (· ++ [command]) }

/-- The text of a command that failed. -/
def failureText (command : String) (e : Error) : String :=
  "Failure during command execution '" ++ command ++ "':\n" ++ e.message

variable {σ : Type}

/-- Run commands in order.  The texts of those that fail are collected. -/
def runAll (h : Host σ) : List String → σ → List String × σ
  | [], s => ([], s)
  | command :: rest, s =>
    match h.run (.shell command) false s with
    | (.ok _, s) => runAll h rest s
    | (.error e, s) =>
      let (failures, s) := runAll h rest s
      (failureText command e :: failures, s)

/-- Let the time pass that a host gets to settle. -/
def settled (r : Restore) (h : Host σ) (s : σ) : σ :=
  match r.settle with
  | some time => h.elapse time s
  | none => s

/-- Run the commands of a test, take them off the list and let the host settle. -/
def teardown (r : Restore) (h : Host σ) (test : String) (s : σ) :
    Except Error Unit × Restore × σ :=
  let (failures, s) := runAll h (r.pending test) s
  let s := r.settled h s
  let left := { r with commands := r.commands.erase test }
  if failures.isEmpty then (.ok (), left, s) else (.error (.cleanupFailed test failures), left, s)

end Restore

end Testbed.Host
