import Testbed.FileTree.Access
import Testbed.Shell.Print

/-!
# Programs

A program is given its arguments, its input and the files, and leaves behind what it wrote, its exit
code and the files.  What the programs have in common stands here: options, complaints, and working
through a list of names.
-/

namespace Testbed.Shell

open Text (Bytes)
open Print (bytes)

/-- What a program leaves behind. -/
structure Program.Outcome where
  code : Nat := 0
  output : Bytes := []
  errors : Bytes := []
  files : FileTree
  /-- The input that it did not take. -/
  left : Bytes := []

/-- A program: from arguments, input and files to what it leaves behind. -/
abbrev Program := List String → Bytes → FileTree → Program.Outcome

namespace Program

/-- A complaint of a program, on a line of its own. -/
def complaint (program text : String) : Bytes := bytes (program ++ ": " ++ text ++ "\n")

/-- A program that only has an exit code. -/
def ofCode (code : Nat) : Program := fun _ input files => { code, files, left := input }

/-- A program that only writes. -/
def ofOutput (output : List String → Bytes) : Program := fun words input files =>
  { output := output words, files, left := input }

/-- The words that are options: they begin with a minus, up to a double minus.  The letters of the
options, and the other words. -/
def options : List String → List Char × List String
  | [] => ([], [])
  | "--" :: rest => ([], rest)
  | word :: rest =>
    let (letters, others) := options rest
    match word.toList with
    | '-' :: c :: cs => (c :: cs ++ letters, others)
    | _ => (letters, word :: others)

/-- Do something for each word; the exit code is the greatest one. -/
def forEach (act : String → FileTree → Outcome) (words : List String) (input : Bytes)
    (files : FileTree) : Outcome :=
  words.foldl
    (fun done word =>
      let next := act word done.files
      { next with
        code := max done.code next.code
        output := done.output ++ next.output
        errors := done.errors ++ next.errors
        left := done.left })
    { files, left := input }

/-- The complaint about a program that is called without an operand. -/
def missingOperand (program kind : String) (files : FileTree) : Outcome :=
  { code := 1
    errors := complaint program ("missing " ++ kind)
      ++ bytes ("Try '" ++ program ++ " --help' for more information.\n")
    files }

/-- The contents of the named files, one after the other; a minus and no name at all mean the
input.  A device that never ends gives as many zeros as the program takes. -/
def gather (program : String) (zeros : Nat) (words : List String) (input : Bytes)
    (files : FileTree) : Outcome :=
  if words.isEmpty then { output := input, files }
  else
    let read (word : String) (files : FileTree) : Outcome :=
      if word = "-" then { output := input, files }
      else if word = "/dev/null" then { files }
      else if word = "/dev/zero" then { output := List.replicate zeros 0, files }
      else
        match files.readBytes word with
        | .ok contents => { output := contents, files }
        | .error e =>
          { code := 1, errors := complaint program (word ++ ": " ++ e.reason), files }
    forEach read words [] files

/-- `cat` -/
def cat : Program := fun words input files => gather "cat" 0 (options words).2 input files

/-- A program that turns the contents of files into other bytes. -/
def filter (program : String) (turn : List Char → Bytes → Bytes) : Program :=
  fun words input files =>
    let (letters, names) := options words
    let read := gather program 0 names input files
    { read with output := turn letters read.output }

end Program

end Testbed.Shell
