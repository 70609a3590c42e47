import Testbed.Text.Line
import Testbed.Text.Utf8

/-!
# Results of modules

What a module leaves behind when it has run on a host: a return code, its two output streams as text
and as lines, and whether it failed.  A process hands over a wait status and bytes.
-/

namespace Testbed.Host

/-- The outcome of a module. -/
structure Result where
  code : Int := 0
  stdout : String := ""
  stdoutLines : List String := []
  stderr : String := ""
  stderrLines : List String := []
  failed : Bool := false
  exception : Option String := none
  deriving DecidableEq

/-- The end of a process and what it wrote. -/
structure Output where
  /-- The status as the system reports it: the low seven bits hold the signal that ended the
  process, the next byte after bit seven its exit code. -/
  waitStatus : Nat
  stdout : Text.Bytes
  stderr : Text.Bytes

/-- The exit code of a process that was not ended by a signal. -/
def Output.exitCode? (o : Output) : Option Nat :=
  if o.waitStatus % 128 = 0 then some (o.waitStatus / 256 % 256) else none

namespace Result

/-- The result of a finished process.  One that was ended by a signal has the code `-1`. -/
def ofOutput (o : Output) : Result :=
  let code : Int := match o.exitCode? with
    | some code => code
    | none => -1
  let stdout := Text.Utf8.decodeLossy o.stdout
  let stderr := Text.Utf8.decodeLossy o.stderr
  { code
    stdout
    stdoutLines := Text.lines stdout
    stderr
    stderrLines := Text.lines stderr
    failed := code != 0 }

/-- The result of a module that could not run to its end. -/
def ofException (message : String) : Result :=
  { code := 1, failed := true, exception := some message }

/-- The result of a module that did its work and wrote nothing. -/
def changed : Result := {}

end Result

end Testbed.Host
