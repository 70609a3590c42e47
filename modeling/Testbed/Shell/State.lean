import Testbed.Shell.Command
import Testbed.Shell.Program
import Testbed.Table

/-!
# The state of a shell

What a shell knows while it runs commands: files, variables, where its descriptors lead, and what
was written to each stream so far.  Commands are actions on this state; control can leave them
before their end.
-/

namespace Testbed.Shell

open Text (Bytes)
open Print (bytes)

/-- Where a descriptor leads. -/
inductive Target where
  /-- One of the streams of the state. -/
  | stream (index : Nat)
  | file (location : FileTree.Location)
  | nowhere
  deriving DecidableEq

/-- The state of a shell. -/
structure State where
  files : FileTree
  vars : Table String := ∅
  functions : List (String × Command) := []
  /-- What the shell calls itself. -/
  name : String := "sh"
  arguments : List String := []
  /-- The letters of the options that are set. -/
  options : List Char := []
  /-- The exit code of the last command. -/
  status : Nat := 0
  /-- The line that is being run. -/
  line : Nat := 1
  /-- The number of loops around the command that is being run. -/
  loops : Nat := 0
  /-- The commands to run when a signal comes; zero stands for the end of the shell. -/
  traps : List (Nat × String) := []
  /-- The exit code of the last command that was not waited for. -/
  job : Option Nat := none
  /-- The values that the local variables of a function had before. -/
  shadowed : List (String × Option String) := []
  /-- What can still be read from the input. -/
  input : Bytes := []
  /-- What was written to each stream.  The first two are the output and the errors of the shell,
  the others belong to pipes and substitutions. -/
  streams : List Bytes := [[], []]
  descriptors : List (Nat × Target) := [(1, .stream 0), (2, .stream 1)]

/-- The number by which a command can name the process of the shell. -/
def processNumber : Nat := 2

/-- The number by which a command can name the last process that was not waited for. -/
def jobNumber : Nat := 3

/-- How control leaves commands before their end. -/
inductive Departure where
  | exit
  | functionEnd
  /-- Out of as many loops. -/
  | loopEnd (levels : Nat)
  /-- To the next round of the loop that is as many levels out. -/
  | nextRound (levels : Nat)
  /-- By a signal. -/
  | killed (signal : Nat)
  /-- The bound on the steps was too low. -/
  | exhausted
  deriving DecidableEq

/-- An action of a shell.  It leaves a state behind even where control leaves it. -/
abbrev Action := ExceptT Departure (StateM State)

namespace State

/-- Where a descriptor leads, if it is open. -/
def target? (s : State) (descriptor : Nat) : Option Target :=
  (s.descriptors.find? (·.1 == descriptor)).map (·.2)

/-- Let a descriptor lead elsewhere, or close it. -/
def direct (s : State) (descriptor : Nat) (target : Option Target) : State :=
  let others := s.descriptors.filter (·.1 != descriptor)
  { s with
    descriptors := match target with
      | some target => (descriptor, target) :: others
      | none => others }

/-- Write to where a descriptor leads.  What is written to a file comes at its end. -/
def write (s : State) (descriptor : Nat) (contents : Bytes) : State :=
  if contents.isEmpty then s
  else
    match s.target? descriptor with
    | some (.stream index) => { s with streams := s.streams.modify index (· ++ contents) }
    | some (.file location) =>
      match s.files.node? location with
      | some (.file before) =>
        { s with files := s.files.put location (.file (before ++ contents)) }
      | _ => s
    | some .nowhere => s
    | none => s

/-- Write a complaint of the shell. -/
def complain (s : State) (text : String) : State :=
  s.write 2 (Program.complaint (s.name ++ ": " ++ toString s.line) text)

/-- Open a new stream and let the output lead to it. -/
def openStream (s : State) : State :=
  { s with streams := s.streams ++ [[]] }.direct 1 (some (.stream s.streams.length))

/-- Take over what another process did: the files, the streams and the input are shared. -/
def rejoin (s inner : State) : State :=
  { s with files := { inner.files with current := s.files.current }
           streams := inner.streams
           input := inner.input
           status := inner.status }

/-- Enter the value of a variable. -/
def assign (s : State) (name value : String) : State :=
  { s with vars := s.vars.insert name value }

/-- Give variables the values that they had, or none. -/
def restore (s : State) (saved : List (String × Option String)) : State :=
  { s with
    vars := saved.foldl
      (fun vars entry =>
        match entry.2 with
        | some value => vars.insert entry.1 value
        | none => vars.erase entry.1)
      s.vars }

/-- The values of variables, as `restore` takes them. -/
def save (s : State) (names : List String) : List (String × Option String) :=
  names.map fun name => (name, s.vars.get? name)

/-- The characters between which unquoted words are split. -/
def separators (s : State) : List Char :=
  match s.vars.get? "IFS" with
  | some text => text.toList
  | none => [' ', '\t', '\n']

/-- The value of a parameter, if it is set. -/
def value? (s : State) (name : String) : Option String :=
  match name with
  | "?" => some (toString s.status)
  | "#" => some (toString s.arguments.length)
  | "$" => some (toString processNumber)
  | "-" => some (String.ofList s.options)
  | "!" => s.job.map fun _ => toString jobNumber
  | "0" => some s.name
  | "@" => if s.arguments.isEmpty then none else some (" ".intercalate s.arguments)
  | "*" =>
    if s.arguments.isEmpty then none
    else some ((String.ofList (s.separators.take 1)).intercalate s.arguments)
  | _ =>
    if name.toList.all Char.isDigit then s.arguments[Print.value name.toList - 1]?
    else s.vars.get? name

end State

/-- Set the exit code. -/
def finish (status : Nat) : Action Unit := modify fun s => { s with status }

/-- End the shell because of a fault. -/
def abort {α : Type} (text : String) : Action α := do
  modify fun s => { s.complain text with status := 2 }
  throw .exit

/-- Run commands as a process of its own: what it changes in the shell itself is lost. -/
def apart (body : Action Unit) : Action Unit := fun s =>
  let (ended, inner) := body.run.run s
  match ended with
  | .error (.killed signal) => (.error (.killed signal), s.rejoin inner)
  | .error .exhausted => (.error .exhausted, s.rejoin inner)
  | _ => (.ok (), s.rejoin inner)

/-- Run commands and hand over what they write to their output. -/
def captured (body : Action Unit) : Action Bytes := fun s =>
  let index := s.streams.length
  let (ended, inner) := (apart body).run.run s.openStream
  let written := (inner.streams[index]?).getD []
  let s := { s.rejoin inner with streams := inner.streams.take index }
  match ended with
  | .ok () => (.ok written, s)
  | .error e => (.error e, s)

/-- Run commands, and undo what happened to the descriptors, and to the input if one of them was for
it. -/
def keepingDescriptors (inputToo : Bool) (body : Action Unit) : Action Unit := fun s =>
  let (ended, inner) := body.run.run s
  let input := if inputToo then s.input else inner.input
  (ended, { inner with descriptors := s.descriptors, input })

/-- Run commands with another input. -/
def withInput (input : Bytes) (body : Action Unit) : Action Unit := fun s =>
  let (ended, inner) := body.run.run { s with input }
  (ended, { inner with input := s.input })

/-- Run commands, and others once they have ended, unless by a signal. -/
def closing (body last : Action Unit) : Action Unit := fun s =>
  let (ended, inner) := body.run.run s
  match ended with
  | .error (.killed _) => (ended, inner)
  | .error .exhausted => (ended, inner)
  | _ =>
    let (ended', inner') := last.run.run inner
    match ended' with
    | .ok () => (ended, inner')
    | _ => (ended', inner')

/-- Run commands, and if a signal comes for which there is a trap, run its commands instead of
ending. -/
def trapping (body : Action Unit) (handle : String → Action Unit) : Action Unit := fun s =>
  let (ended, inner) := body.run.run s
  match ended with
  | .error (.killed signal) =>
    match inner.traps.find? (·.1 == signal) with
    | some (_, text) => (handle text).run.run inner
    | none => (ended, inner)
  | _ => (ended, inner)

/-- Run the body of a loop, and tell whether the loop goes on. -/
def round (body : Action Unit) : Action Bool := fun s =>
  let (ended, inner) := body.run.run { s with loops := s.loops + 1 }
  let t := { inner with loops := s.loops }
  match ended with
  | .ok () => (.ok true, t)
  | .error (.loopEnd levels) =>
    if levels ≤ 1 then (.ok false, t) else (.error (.loopEnd (levels - 1)), t)
  | .error (.nextRound levels) =>
    if levels ≤ 1 then (.ok true, t) else (.error (.nextRound (levels - 1)), t)
  | .error e => (.error e, t)

/-- Run the body of a function, with arguments and local variables of its own. -/
def inFunction (arguments : List String) (body : Action Unit) : Action Unit := fun s =>
  let (ended, inner) := body.run.run { s with arguments, shadowed := [], loops := 0 }
  let t := { inner.restore inner.shadowed with
    arguments := s.arguments, shadowed := s.shadowed, loops := s.loops }
  match ended with
  | .error .functionEnd => (.ok (), t)
  | _ => (ended, t)

/-- Run commands as those of another shell.  If that shell is killed, this one only tells so. -/
def inShell (name : String) (arguments : List String) (body : Action Unit) : Action Unit := fun s =>
  let fresh : State :=
    { s with name, arguments, functions := [], options := [], traps := [], loops := 0 }
  let (ended, inner) := (apart body).run.run fresh
  let t := s.rejoin inner
  match ended with
  | .error (.killed signal) =>
    (.ok (), { t.write 2 (bytes (if signal = 9 then "Killed\n" else "Terminated\n")) with
      status := 128 + signal })
  | _ => (ended, t)

/-- Leave the shell if a command failed and the options ask for that.  It does not matter that a
command fails where its success is tested. -/
def checked (tested : Bool) : Action Unit := do
  let s ← get
  if !tested && s.options.contains 'e' && s.status != 0 then throw .exit

end Testbed.Shell
