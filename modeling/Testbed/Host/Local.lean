import Testbed.Host.Basic
import Testbed.Host.Template
import Testbed.Shell.Run

/-!
# The local host

The machine that the harness itself runs on.  Its modules run commands, copy files and render
templates in a tree of files.  What keeps a module from its end is the exception of its result.
-/

namespace Testbed.Host

/-- The output of a finished command. -/
def Output.ofFinished (f : Shell.Finished) : Output where
  waitStatus := match f.ending with
    | .code n => n % 256 * 256
    | .signal n => n
  stdout := f.output
  stderr := f.errors

namespace Local

/-- The name that the local host has unless it is given another one. -/
def defaultName : String := "localhost"

/-- The result of a finished command, with the files that it left. -/
def finished (f : Shell.Finished) : Result × FileTree := (.ofOutput (.ofFinished f), f.files)

/-- Why no process can be made of a name that is not the name of a program. -/
def startError (name : String) (t : FileTree) : FileError :=
  if name.toList.contains '/' then
    match t.lookup name with
    | .ok _ => .permissionDenied
    | .error e => e
  else if name = "." || name = ".." then .permissionDenied
  else if FileTree.nameLimit < Text.Utf8.size name then .nameTooLong
  else .notFound

/-- Run the program that a command begins with.  Nothing but blanks has a meaning in a command. -/
def command (words : String) (t : FileTree) : Result × FileTree :=
  match Text.words words with
  | [] => (.ofException "no command given", t)
  | name :: arguments =>
    match Shell.runProgram? name arguments t with
    | some f => finished f
    | none => (.ofException ("failed to run command: " ++ (startError name t).message), t)

/-- Where a file is put: what is put into a directory keeps its name. -/
def destination (t : FileTree) (source target : Path) : Path :=
  match source.fileName? with
  | some name => if t.isDirectory target then target.join name else target
  | none => target

/-- Copy a file. -/
def copy (source target : Path) (t : FileTree) : Result × FileTree :=
  let target := destination t source target
  match t.copy source target with
  | .ok t => (.changed, t)
  | .error e =>
    (.ofException ("failed to copy " ++ source ++ " to " ++ target ++ ": " ++ e.message), t)

/-- Render a template into a file. -/
def template (source target : Path) (vars : Table String) (t : FileTree) : Result × FileTree :=
  match t.readText source with
  | .error e => (.ofException ("failed to read template " ++ source ++ ": " ++ e.message), t)
  | .ok text =>
    match Template.render text vars with
    | .error name =>
      (.ofException ("'" ++ name ++ "' is undefined in template " ++ source), t)
    | .ok rendered =>
      let target := destination t source target
      match t.write target (Text.Utf8.encode rendered) with
      | .ok t => (.changed, t)
      | .error e => (.ofException ("failed to write " ++ target ++ ": " ++ e.message), t)

/-- Run a module. -/
def execute : Module → FileTree → Result × FileTree
  | .shell line, t => finished (Shell.run line t)
  | .command words, t => command words t
  | .copy source target, t => copy source target t
  | .template source target vars, t => template source target vars t

end Local

/-- The local host, with a name of its own if it is given one. -/
def localhost (name? : Option String) : Host FileTree where
  name := name?.getD Local.defaultName
  execute := Local.execute

end Testbed.Host
