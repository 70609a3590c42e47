import Testbed.Duration
import Testbed.FileTree.Path
import Testbed.Host.Result
import Testbed.Table
import Testbed.Text.Quoted

/-!
# Hosts

A host executes modules and tells their results, and its state may change while time passes.
Running a module on a host makes a failed result an error, unless errors are ignored.
-/

namespace Testbed

/-- What can be executed on a host. -/
inductive Host.Module where
  /-- A command line for the shell. -/
  | shell (command : String)
  /-- A program and its arguments, separated by blanks. -/
  | command (words : String)
  | copy (source target : Path)
  | template (source target : Path) (vars : Table String)

/-- A host, whose modules act on a state. -/
structure Host (σ : Type) where
  name : String
  execute : Host.Module → σ → Host.Result × σ
  /-- What becomes of the state in a time in which nothing is executed. -/
  elapse : Duration → σ → σ := fun _ s => s

namespace Host

/-- The name of a kind of module. -/
def Module.name : Module → String
  | shell _ => "shell"
  | command _ => "command"
  | copy _ _ => "copy"
  | template _ _ _ => "template"

/-- Why work on a host fails. -/
inductive Error where
  | moduleFailed (host module : String) (result : Result)
  /-- Clean-up commands of a test failed, each with a text of its own. -/
  | cleanupFailed (test : String) (failures : List String)
  deriving DecidableEq

/-- What a failed result shows: its exception, or else its code and what it wrote as errors. -/
def Result.complaint (r : Result) : String :=
  match r.exception with
  | some exception => exception
  | none => "rc=" ++ toString r.code ++ " stderr=" ++ Text.quoted (Text.trimEnd r.stderr)

/-- The wording of an error. -/
def Error.message : Error → String
  | moduleFailed host module result =>
    "run module " ++ module ++ " failed on " ++ host ++ ": " ++ result.complaint
  | cleanupFailed _ failures => "\n".intercalate failures

variable {σ : Type}

/-- Run a module. -/
def run (h : Host σ) (module : Module) (ignoreErrors : Bool) (s : σ) : Except Error Result × σ :=
  let (result, s) := h.execute module s
  if result.failed && !ignoreErrors then (.error (.moduleFailed h.name module.name result), s)
  else (.ok result, s)

end Host

end Testbed
