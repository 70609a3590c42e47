import Testbed.Shell.Program.Condition
import Testbed.Shell.Program.File
import Testbed.Shell.Program.Text

/-!
# The programs by their names

Which program a command means that is none of the shell itself.
-/

namespace Testbed.Shell.Program

/-- `printf` -/
def printf (name : String) : Program := fun words input files =>
  let words := if words.head? = some "--" then words.drop 1 else words
  match words with
  | [] =>
    { code := 2
      errors := complaint name "usage: printf format [arg ...]"
      files
      left := input }
  | format :: words =>
    let p := Print.printf format words
    { code := if p.faults.any Print.Fault.isFatal then 2 else if p.faults.isEmpty then 0 else 1
      output := p.bytes
      errors := p.faults.flatMap fun fault => complaint name fault.message
      files
      left := input }

/-- The programs by their names. -/
def find? (name : String) : Option Program :=
  match name with
  | "true" => some (ofCode 0)
  | "false" => some (ofCode 1)
  | "sleep" => some (ofCode 0)
  | "sync" => some (ofCode 0)
  | "echo" => some (ofOutput Print.echoProgram)
  | "printf" => some (printf "printf")
  | "test" => some (test "test")
  | "[" => some (bracket "[")
  | "cat" => some cat
  | "head" => some head
  | "tail" => some tail
  | "sort" => some sort
  | "uniq" => some uniq
  | "wc" => some wc
  | "tr" => some tr
  | "touch" => some touch
  | "rm" => some rm
  | "mkdir" => some mkdir
  | "rmdir" => some rmdir
  | "ls" => some ls
  | "cp" => some (transfer "cp" false)
  | "mv" => some (transfer "mv" true)
  | "tee" => some tee
  | "basename" => some basename
  | "dirname" => some dirname
  | "seq" => some seq
  | _ => none

end Testbed.Shell.Program
