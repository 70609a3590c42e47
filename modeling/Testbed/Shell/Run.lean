import Testbed.Shell.Builtin
import Testbed.Shell.Reader
import Testbed.Shell.Redirect

/-!
# Running command lines

Commands are run as actions on the state of a shell.  A command line is read and run line by line,
so a fault in a later line does not keep the earlier ones from being run.  The functions below
recurse on `fuel`, which bounds how deep commands are nested and how often loops go round.
-/

namespace Testbed.Shell

open Text (Bytes)
open Print (bytes)

/-- The text of bytes without the line ends behind it. -/
def substituted (written : Bytes) : String :=
  Text.Utf8.decodeLossy (written.reverse.dropWhile (· = 10)).reverse

/-- Whether a word has commands in it. -/
def hasCommands (word : Word) : Bool :=
  word.any fun
    | .output _ _ => true
    | _ => false

/-- The atoms of the value of a parameter. -/
def State.atoms (s : State) (name : String) (quoted : Bool) (value : String) : List Atom :=
  match name, quoted with
  | "@", _ => Atom.ofTexts quoted true s.arguments
  | "*", false => Atom.ofTexts false true s.arguments
  | _, _ => Atom.ofText quoted true value

/-- The program that a name means; the directory where programs are may stand before the name. -/
def program? (name : String) : Option Program :=
  let bare (front : String) : Option Program :=
    if front.toList.isPrefixOf name.toList then
      Program.find? (String.ofList (name.toList.drop front.length))
    else none
  (Program.find? name).orElse fun _ => (bare "/bin/").orElse fun _ => bare "/usr/bin/"

/-- Whether a name means a shell. -/
def isShell (name : String) : Bool :=
  ["sh", "dash", "/bin/sh", "/usr/bin/sh", "/bin/dash", "/usr/bin/dash"].contains name

/-- Complain about a command that does not exist, or that is a file and cannot be run. -/
def missing (name : String) : Action Unit :=
  modify fun s =>
    if name.isEmpty then { s.complain ": Permission denied" with status := 127 }
    else if name.toList.contains '/' && s.files.exists? name then
      { s.complain (name ++ ": Permission denied") with status := 126 }
    else { s.complain (name ++ ": not found") with status := 127 }

mutual

/-- The atoms of a word. -/
def expand : (fuel : Nat) → Word → Action (List Atom)
  | 0, _ => throw .exhausted
  | _ + 1, [] => pure []
  | fuel + 1, part :: rest => do
    match part, rest with
    | .text "" true, .parameter "@" .plain argument true :: rest' =>
      if (← get).arguments.isEmpty then expand fuel rest'
      else
        let first ← expandPart fuel (.parameter "@" .plain argument true)
        let more ← expand fuel rest'
        pure (first ++ more)
    | _, _ =>
      let first ← expandPart fuel part
      let more ← expand fuel rest
      pure (first ++ more)
termination_by structural fuel => fuel

/-- The atoms of a part of a word. -/
def expandPart : (fuel : Nat) → Part → Action (List Atom)
  | 0, _ => throw .exhausted
  | fuel + 1, part => do
    match part with
    | .text s quoted => pure ((if quoted then [Atom.present] else []) ++ Atom.ofText quoted false s)
    | .arithmetic expression quoted =>
      let text := Atom.text (← expand fuel expression)
      let s ← get
      match Arithmetic.evaluate s.vars text with
      | .ok (n, vars) =>
        set { s with vars }
        pure (Atom.ofText quoted true (toString n))
      | .error fault => abort (fault.message text)
    | .output body quoted =>
      let written ← captured (process fuel false body)
      pure (Atom.ofText quoted true (substituted written))
    | .parameter name operation argument quoted =>
      let s ← get
      let value? := s.value? name
      let value := value?.getD ""
      let isMissing (alsoEmpty : Bool) : Bool := value?.isNone || (alsoEmpty && value.isEmpty)
      match operation with
      | .plain =>
        if value?.isNone && s.options.contains 'u' && name != "@" && name != "*" then
          abort (name ++ ": parameter not set")
        else pure (s.atoms name quoted value)
      | .length => pure (Atom.ofText quoted true (toString (Text.Utf8.size value)))
      | .default alsoEmpty =>
        if isMissing alsoEmpty then expand fuel argument else pure (s.atoms name quoted value)
      | .assign alsoEmpty =>
        if isMissing alsoEmpty then
          let text := Atom.text (← expand fuel argument)
          modify (·.assign name text)
          pure (Atom.ofText quoted true text)
        else pure (s.atoms name quoted value)
      | .require alsoEmpty =>
        if isMissing alsoEmpty then
          let text := Atom.text (← expand fuel argument)
          let reason :=
            if !text.isEmpty then text
            else if alsoEmpty then "parameter not set or null" else "parameter not set"
          abort (name ++ ": " ++ reason)
        else pure (s.atoms name quoted value)
      | .alternative alsoEmpty =>
        if isMissing alsoEmpty then pure [] else expand fuel argument
      | .trimStart longest =>
        let pattern := Atom.marks (← expand fuel argument)
        pure (Atom.ofText quoted true (Pattern.trimStart longest pattern value))
      | .trimEnd longest =>
        let pattern := Atom.marks (← expand fuel argument)
        pure (Atom.ofText quoted true (Pattern.trimEnd longest pattern value))
termination_by structural fuel => fuel

/-- The fields of words. -/
def expandAll : (fuel : Nat) → List Word → Action (List String)
  | 0, _ => throw .exhausted
  | _ + 1, [] => pure []
  | fuel + 1, word :: rest => do
    let atoms ← expand fuel word
    let s ← get
    let here := (Atom.fields s.separators atoms).flatMap (Pattern.paths s.files)
    let more ← expandAll fuel rest
    pure (here ++ more)
termination_by structural fuel => fuel

/-- Make assignments. -/
def assignAll : (fuel : Nat) → List (String × Word) → Action Unit
  | 0, _ => throw .exhausted
  | _ + 1, [] => pure ()
  | fuel + 1, (name, word) :: rest => do
    let text := Atom.text (← expand fuel word)
    modify (·.assign name text)
    assignAll fuel rest
termination_by structural fuel => fuel

/-- Make redirections, up to the first one that is not possible. -/
def redirectAll : (fuel : Nat) → List Redirection → Action Bool
  | 0, _ => throw .exhausted
  | _ + 1, [] => pure true
  | fuel + 1, .mk descriptor direction target :: rest => do
    let word := Atom.text (← expand fuel target)
    let done ← match direction with
      | .read => openInput descriptor word
      | .write => openFile descriptor false word
      | .append => openFile descriptor true word
      | .duplicate => duplicate descriptor word
      | .here => openText descriptor word
    if done then redirectAll fuel rest else pure false
termination_by structural fuel => fuel

/-- Run commands one after the other. -/
def commands (tested : Bool) : (fuel : Nat) → List Command → Action Unit
  | 0, _ => throw .exhausted
  | _ + 1, [] => pure ()
  | fuel + 1, first :: rest => do
    command fuel tested first
    commands tested fuel rest
termination_by structural fuel => fuel

/-- Run a command.  `tested` says that it matters to the commands around it whether it fails. -/
def command : (fuel : Nat) → (tested : Bool) → Command → Action Unit
  | 0, _, _ => throw .exhausted
  | fuel + 1, tested, c => do
    match c with
    | .simple line assignments words redirections =>
      modify fun s => { s with line }
      simple fuel assignments words redirections
      checked tested
    | .pipeline negated stages =>
      pipeline (tested || negated) fuel stages
      if negated then modify fun s => { s with status := if s.status = 0 then 1 else 0 }
      else checked tested
    | .chain ifSuccess first second =>
      command fuel true first
      if ((← get).status = 0) == ifSuccess then command fuel tested second
    | .sequence body => commands tested fuel body
    | .subshell body =>
      apart (process fuel tested body)
      checked tested
    | .background body =>
      apart (withInput [] (process fuel tested body))
      modify fun s => { s with job := some s.status, status := 0 }
    | .group body => command fuel tested body
    | .redirected line body redirections =>
      let inputToo := redirections.any fun | .mk descriptor _ _ => descriptor = 0
      modify fun s => { s with line }
      keepingDescriptors inputToo do
        if ← redirectAll fuel redirections then command fuel tested body else finish 2
      checked tested
    | .conditional clauses otherwise => conditional tested otherwise fuel clauses
    | .loop untilSuccess condition body => loop tested untilSuccess condition body 0 fuel
    | .forEach name words body =>
      let listed ← match words with
        | some words => expandAll fuel words
        | none => do pure (← get).arguments
      finish 0
      forEach tested name body fuel listed
    | .choose word clauses =>
      let text := Atom.text (← expand fuel word)
      finish 0
      choose tested text fuel clauses
    | .define name body =>
      modify fun s =>
        { s with functions := (name, body) :: s.functions.filter (·.1 != name), status := 0 }
termination_by structural fuel => fuel

/-- Run a command as a process of its own does, which has no traps at first. -/
def process : (fuel : Nat) → (tested : Bool) → Command → Action Unit
  | 0, _, _ => throw .exhausted
  | fuel + 1, tested, c =>
    closing
      (do
        modify fun s => { s with traps := [] }
        command fuel tested c)
      (exitTrap fuel)
termination_by structural fuel => fuel

/-- Run the commands that are to be run at the end.  They keep the exit code, unless they give one
themselves. -/
def exitTrap : (fuel : Nat) → Action Unit
  | 0 => throw .exhausted
  | fuel + 1 => do
    let s ← get
    match s.traps.find? (·.1 == 0) with
    | none => pure ()
    | some (_, text) =>
      set { s with traps := s.traps.filter (·.1 != 0) }
      script (text.toList.count '\n') "" fuel text.toList
      finish s.status
termination_by structural fuel => fuel

/-- Run the stages of a pipeline, each as a process of its own.  One stage alone is no process. -/
def pipeline (tested : Bool) : (fuel : Nat) → List Command → Action Unit
  | 0, _ => throw .exhausted
  | _ + 1, [] => pure ()
  | fuel + 1, [only] => command fuel tested only
  | fuel + 1, first :: rest => do
    let written ← captured (process fuel tested first)
    withInput written (laterStages tested fuel rest)
termination_by structural fuel => fuel

/-- Run the stages of a pipeline behind the first one. -/
def laterStages (tested : Bool) : (fuel : Nat) → List Command → Action Unit
  | 0, _ => throw .exhausted
  | _ + 1, [] => pure ()
  | fuel + 1, [last] => apart (process fuel tested last)
  | fuel + 1, next :: rest => do
    let written ← captured (process fuel tested next)
    withInput written (laterStages tested fuel rest)
termination_by structural fuel => fuel

/-- Run the first of some clauses whose condition succeeds. -/
def conditional (tested : Bool) (otherwise : Option Command) :
    (fuel : Nat) → List (Command × Command) → Action Unit
  | 0, _ => throw .exhausted
  | fuel + 1, [] =>
    match otherwise with
    | some body => command fuel tested body
    | none => finish 0
  | fuel + 1, (condition, body) :: rest => do
    command fuel true condition
    if (← get).status = 0 then command fuel tested body
    else conditional tested otherwise fuel rest
termination_by structural fuel => fuel

/-- Run a loop with a condition; `last` is the exit code of its last round. -/
def loop (tested untilSuccess : Bool) (condition body : Command) (last : Nat) :
    (fuel : Nat) → Action Unit
  | 0 => throw .exhausted
  | fuel + 1 => do
    command fuel true condition
    if ((← get).status = 0) == untilSuccess then finish last
    else if ← round (command fuel tested body) then
      loop tested untilSuccess condition body (← get).status fuel
termination_by structural fuel => fuel

/-- Run a loop over words. -/
def forEach (tested : Bool) (name : String) (body : Command) :
    (fuel : Nat) → List String → Action Unit
  | 0, _ => throw .exhausted
  | _ + 1, [] => pure ()
  | fuel + 1, value :: rest => do
    modify (·.assign name value)
    if ← round (command fuel tested body) then forEach tested name body fuel rest
termination_by structural fuel => fuel

/-- Run the first of some clauses with a pattern that a text matches. -/
def choose (tested : Bool) (text : String) :
    (fuel : Nat) → List (List Word × Command) → Action Unit
  | 0, _ => throw .exhausted
  | _ + 1, [] => pure ()
  | fuel + 1, (patterns, body) :: rest => do
    if ← matchesAny text fuel patterns then command fuel tested body
    else choose tested text fuel rest
termination_by structural fuel => fuel

/-- Whether a text matches one of some patterns. -/
def matchesAny (text : String) : (fuel : Nat) → List Word → Action Bool
  | 0, _ => throw .exhausted
  | _ + 1, [] => pure false
  | fuel + 1, pattern :: rest => do
    let marks := Atom.marks (← expand fuel pattern)
    if Pattern.matches? marks text.toList then pure true else matchesAny text fuel rest
termination_by structural fuel => fuel

/-- Run a simple command.  Without a name it makes its assignments for good. -/
def simple : (fuel : Nat) → List (String × Word) → List Word → List Redirection → Action Unit
  | 0, _, _, _ => throw .exhausted
  | fuel + 1, assignments, words, redirections => do
    let inputToo := redirections.any fun | .mk descriptor _ _ => descriptor = 0
    match ← expandAll fuel words with
    | [] =>
      let keeps := words.any hasCommands || assignments.any fun entry => hasCommands entry.2
      if ← keeping inputToo fuel redirections then
        assignAll fuel assignments
        if !keeps then finish 0
      else finish 2
    | name :: arguments =>
      let run : Action Unit := do
        let saved := (← get).save (assignments.map (·.1))
        assignAll fuel assignments
        call fuel name arguments
        if !Builtin.isSpecial name then modify (·.restore saved)
      if name = "exec" then
        if ← redirectAll fuel redirections then run else abort "exec"
      else
        keepingDescriptors inputToo do
          if ← redirectAll fuel redirections then run
          else
            finish 2
            if Builtin.isSpecial name then throw .exit
termination_by structural fuel => fuel

/-- Make redirections that concern nothing, and tell whether they are possible. -/
def keeping (inputToo : Bool) : (fuel : Nat) → List Redirection → Action Bool
  | 0, _ => throw .exhausted
  | fuel + 1, redirections => do
    let before ← get
    let done ← redirectAll fuel redirections
    modify fun s =>
      { s with
        descriptors := before.descriptors
        input := if inputToo then before.input else s.input }
    pure done
termination_by structural fuel => fuel

/-- Run the command of a name: a function, a command of the shell itself, or a program. -/
def call : (fuel : Nat) → String → List String → Action Unit
  | 0, _, _ => throw .exhausted
  | fuel + 1, name, arguments => do
    match (← get).functions.find? (·.1 == name) with
    | some (_, body) => inFunction arguments (command fuel false body)
    | none => callBuiltin fuel name arguments
termination_by structural fuel => fuel

/-- Run the command of a name that is no function. -/
def callBuiltin : (fuel : Nat) → String → List String → Action Unit
  | 0, _, _ => throw .exhausted
  | fuel + 1, name, arguments => do
    match name, arguments with
    | "eval", _ =>
      let cs := (" ".intercalate arguments).toList
      finish 0
      script (cs.count '\n') "eval: " fuel cs
    | ".", p :: _ =>
      if !p.toList.contains '/' then abort (".: " ++ p ++ ": not found")
      match (← get).files.readText p with
      | .ok text =>
        finish 0
        script (text.toList.count '\n') "" fuel text.toList
      | .error e => abort (".: cannot open " ++ p ++ ": " ++ openReason "No such file" e)
    | "exec", [] => finish 0
    | "exec", name :: arguments =>
      if (program? name).isSome || isShell name then callBuiltin fuel name arguments
      else modify fun s => { s.complain ("exec: " ++ name ++ ": not found") with status := 127 }
      throw .exit
    | "command", "-v" :: name :: _ =>
      if (Builtin.find? name).isSome then
        Builtin.put (bytes (name ++ "\n"))
        finish 0
      else if (program? name).isSome || isShell name then
        Builtin.put (bytes ("/usr/bin/" ++ name ++ "\n"))
        finish 0
      else finish 127
    | "kill", _ =>
      trapping (Builtin.kill arguments) fun text =>
        script (text.toList.count '\n') "" fuel text.toList
    | "command", name :: arguments => callBuiltin fuel name arguments
    | _, _ =>
      if isShell name then shell fuel arguments else
      match Builtin.find? name with
      | some builtin => builtin arguments
      | none =>
        match program? name with
        | some program => Builtin.ofProgram program arguments
        | none => missing name
termination_by structural fuel => fuel

/-- Run another shell, on the commands in its arguments or in a file, or on its input. -/
def shell : (fuel : Nat) → List String → Action Unit
  | 0, _ => throw .exhausted
  | fuel + 1, arguments => do
    let s ← get
    match arguments with
    | ["-c"] =>
      set { s.write 2 (Program.complaint "sh: 0" "-c requires an argument") with status := 2 }
    | "-c" :: text :: rest => inShell (rest.headD "sh") rest.tail (lines fuel text)
    | p :: rest =>
      match s.files.readText p with
      | .ok text => inShell p rest (lines fuel text)
      | .error e =>
        set { s.write 2 (Program.complaint "sh: 0" ("cannot open " ++ p ++ ": "
          ++ openReason "No such file" e)) with status := 2 }
    | [] =>
      let text := Text.Utf8.decodeLossy s.input
      withInput [] (inShell "sh" [] (lines fuel text))
termination_by structural fuel => fuel

/-- Run a text of commands as a shell does from its start to its end. -/
def lines : (fuel : Nat) → String → Action Unit
  | 0, _ => throw .exhausted
  | fuel + 1, text =>
    closing
      (do
        finish 0
        script (text.toList.count '\n') "" fuel text.toList)
      (exitTrap fuel)
termination_by structural fuel => fuel

/-- Run the lines of a text of commands.  `label` stands in front of complaints about the text. -/
def script (breaks : Nat) (label : String) : (fuel : Nat) → List Char → Action Unit
  | 0, _ => throw .exhausted
  | fuel + 1, cs => do
    match Reader.nextLine breaks cs with
    | .error e =>
      let line := Reader.lineOf breaks (cs.drop (cs.length - e.left))
      modify fun s => { s with line }
      abort (label ++ e.reason.message)
    | .ok none => pure ()
    | .ok (some (line, rest)) =>
      commands false fuel line
      script breaks label fuel rest
termination_by structural fuel => fuel

end

/-- How a shell ends. -/
inductive Ending where
  | code (n : Nat)
  | signal (n : Nat)
  deriving DecidableEq

/-- What a shell leaves behind. -/
structure Finished where
  ending : Ending
  output : Bytes
  errors : Bytes
  files : FileTree

/-- The bound on the steps of a command line. -/
def stepLimit : Nat := 10000

/-- The signal by which a process ends that takes more time than it may. -/
def timeSignal : Nat := 24

/-- Run an action in a shell of its own. -/
def start (action : Action Unit) (s : State) : Finished :=
  let (ended, t) := action.run.run s
  { ending := match ended with
      | .error (.killed signal) => .signal signal
      | .error .exhausted => .signal timeSignal
      | _ => .code t.status
    output := (t.streams[0]?).getD []
    errors := (t.streams[1]?).getD []
    files := { t.files with current := s.files.current } }

/-- Run the lines of a text in a shell of its own. -/
def runAs (name : String) (arguments : List String) (text : String) (files : FileTree) : Finished :=
  start (lines stepLimit text) { files, name, arguments }

/-- Run command lines. -/
def run (text : String) (files : FileTree) : Finished := runAs "sh" [] text files

/-- Run a program with arguments, if there is one of that name. -/
def runProgram? (name : String) (arguments : List String) (files : FileTree) : Option Finished :=
  if isShell name then
    match arguments with
    | "-c" :: text :: rest => some (runAs (rest.headD "sh") rest.tail text files)
    | _ => some (start (shell stepLimit arguments) { files })
  else
    (program? name).map fun program =>
      let done := program arguments [] files
      { ending := .code done.code
        output := done.output
        errors := done.errors
        files := done.files }

end Testbed.Shell
