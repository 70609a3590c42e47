import Testbed.Shell.Arithmetic
import Testbed.Shell.Field
import Testbed.Shell.State

/-!
# Commands of the shell itself

The commands that act on the state of the shell, as opposed to the programs, which act on files and
streams only.  Those that run further commands are not among them.
-/

namespace Testbed.Shell

open Print (bytes)

/-- A command of the shell itself. -/
abbrev Builtin := List String → Action Unit

namespace Builtin

/-- Write to the output. -/
def put (contents : Text.Bytes) : Action Unit := modify fun s => s.write 1 contents

/-- Fail with a complaint, in the name of a command. -/
def fail (command text : String) (status : Nat) : Action Unit :=
  modify fun s => { s.complain (command ++ ": " ++ text) with status }

/-- The greatest number that an argument can have. -/
def numberLimit : Nat := 2 ^ 31 - 1

/-- The number of an argument, all of whose characters must be digits. -/
def number? (word : String) : Option Nat :=
  if word.isEmpty || !word.toList.all Char.isDigit then none
  else
    let n := Print.value word.toList
    if n ≤ numberLimit then some n else none

/-- The number that a command is given, or what it takes without one. -/
def count (command : String) (preset : Nat) : List String → Action Nat
  | [] => pure preset
  | word :: _ =>
    match number? word with
    | some n => pure n
    | none => abort (command ++ ": Illegal number: " ++ word)

/-- Run a program in the shell. -/
def ofProgram (program : Program) : Builtin := fun words => do
  let s ← get
  let done := program words s.input s.files
  set (({ s with files := done.files, input := done.left, status := done.code }.write 1
    done.output).write 2 done.errors)

/-- A command that complains in the name of the shell. -/
def named (program : String → Program) (command : String) : Builtin := fun words => do
  let s ← get
  ofProgram (program (s.name ++ ": " ++ toString s.line ++ ": " ++ command)) words

/-- `exit` -/
def exit : Builtin := fun words => do
  let status ← count "exit" (← get).status words
  finish (status % 256)
  throw .exit

/-- `return` -/
def leaveFunction : Builtin := fun words => do
  let status ← count "return" (← get).status words
  finish (status % 256)
  throw .functionEnd

/-- `break` and `continue`: a number of levels, of which there are no more than loops. -/
def leave (command : String) (departure : Nat → Departure) : Builtin := fun words => do
  let levels ← count command 1 words
  if levels = 0 then abort (command ++ ": Illegal number: " ++ words.headD "")
  finish 0
  let loops := (← get).loops
  if loops != 0 then throw (departure (min levels loops))

/-- The name and the value of an assignment in an argument. -/
def assignment (word : String) : String × Option String :=
  let cs := word.toList
  match cs.dropWhile (· != '=') with
  | _ :: value => (String.ofList (cs.takeWhile (· != '=')), some (String.ofList value))
  | [] => (word, none)

/-- `export` and `readonly`: the variables with a value are entered. -/
def exportAll : Builtin := fun words => do
  for word in words do
    match assignment word with
    | (name, some value) => modify (·.assign name value)
    | (_, none) => pure ()
  finish 0

/-- `local` -/
def declareLocal : Builtin := fun words => do
  for word in words do
    let (name, value) := assignment word
    modify fun s => { s with shadowed := s.save [name] ++ s.shadowed }
    match value with
    | some value => modify (·.assign name value)
    | none => pure ()
  finish 0

/-- `unset` -/
def unset : Builtin := fun words => do
  let names := words.filter fun word => word != "-v" && word != "-f"
  modify fun s =>
    { s with
      vars :=
        if words.contains "-f" then s.vars
        else names.foldl (fun vars name => vars.erase name) s.vars
      functions :=
        if words.contains "-v" then s.functions
        else s.functions.filter fun f => !names.contains f.1 }
  finish 0

/-- `set`: options, and new arguments. -/
def setOptions : Builtin := fun words => do
  let isOption (word : String) : Bool :=
    (word.toList.head? == some '-' || word.toList.head? == some '+') && 1 < word.length
      && word != "--"
  for word in words.takeWhile isOption do
    let letters := word.toList.drop 1
    modify fun s =>
      { s with
        options :=
          if word.toList.head? == some '-' then
            s.options ++ letters.filter fun c => !s.options.contains c
          else s.options.filter fun c => !letters.contains c }
  match words.dropWhile isOption with
  | "--" :: rest => modify fun s => { s with arguments := rest }
  | [] => pure ()
  | rest => modify fun s => { s with arguments := rest }
  finish 0

/-- `shift` -/
def shift : Builtin := fun words => do
  let n ← count "shift" 1 words
  let s ← get
  if s.arguments.length < n then abort "shift: can't shift that many"
  set { s with arguments := s.arguments.drop n, status := 0 }

/-- `cd` -/
def cd : Builtin := fun words => do
  let s ← get
  match words with
  | [] => finish 0
  | p :: _ =>
    match s.files.lookup p with
    | .ok (location, .directory) =>
      set { s with files := { s.files with current := location }, status := 0 }
    | _ => fail "cd" ("can't cd to " ++ p) 2

/-- `pwd`: where the working directory itself is, no command can tell. -/
def pwd : Builtin := fun _ => do
  let current := (← get).files.current
  let shown := match current with
    | [] => "."
    | first :: rest => if first = "/" then "/" ++ "/".intercalate rest else "/".intercalate current
  put (bytes (shown ++ "\n"))
  finish 0

/-- The signals, by their names. -/
def signals : List (String × Nat) :=
  [("HUP", 1), ("INT", 2), ("QUIT", 3), ("ABRT", 6), ("KILL", 9), ("USR1", 10), ("SEGV", 11),
    ("USR2", 12), ("PIPE", 13), ("ALRM", 14), ("TERM", 15)]

/-- The number of a signal, which is given by its number or its name. -/
def signal? (word : String) : Option Nat :=
  match number? word with
  | some n => if n ≤ 64 then some n else none
  | none =>
    let name :=
      if "SIG".toList.isPrefixOf word.toList then String.ofList (word.toList.drop 3) else word
    (signals.find? (·.1 == name)).map (·.2)

/-- `trap`: commands for signals, or a minus for none. -/
def trap : Builtin := fun words => do
  let number? (word : String) : Option Nat := if word = "EXIT" then some 0 else signal? word
  match words with
  | [] => pure ()
  | text :: names =>
    for name in names do
      match number? name with
      | none => abort ("trap: " ++ name ++ ": bad trap")
      | some n =>
        modify fun s =>
          let others := s.traps.filter (·.1 != n)
          { s with traps := if text = "-" || n = 9 then others else (n, text) :: others }
  finish 0

/-- `wait`: what it waits for has ended already. -/
def wait : Builtin := fun words => do
  let s ← get
  if words.isEmpty then finish 0
  else if words.contains (toString jobNumber) then finish (s.job.getD 127)
  else finish 127

/-- `kill`: only the shell itself can be meant. -/
def kill : Builtin := fun words =>
  let (signal, targets) : Option Nat × List String := match words with
    | "-s" :: name :: rest => (signal? name, rest)
    | word :: rest =>
      match word.toList with
      | '-' :: c :: cs => (signal? (String.ofList (c :: cs)), rest)
      | _ => (some 15, word :: rest)
    | [] => (some 15, [])
  match signal with
  | none => abort ("kill: Illegal option " ++ String.ofList ((words.headD "").toList.take 2))
  | some signal => do
    if targets.any fun word => word == toString processNumber then
      finish 0
      if signal != 0 then throw (.killed signal)
    else
      match targets.find? fun word => (number? word).isNone with
      | some word => abort ("kill: Illegal number: " ++ word)
      | none => fail "kill" "No such process\n" 1

/-- The bytes of a line, whether it had an end, and the bytes after it. -/
def lineOf (input : Text.Bytes) : Text.Bytes × Bool × Text.Bytes :=
  match input.dropWhile (· != 10) with
  | _ :: rest => (input.takeWhile (· != 10), true, rest)
  | [] => (input, false, [])

/-- Give the fields of a line to variables, the last of which takes all that is left. -/
def distribute (separators : List Char) : List String → List Char → List (String × String)
  | [], _ => []
  | [name], cs =>
    let trimmed := (cs.dropWhile fun c => separators.contains c && Atom.isBlank c).reverse
    [(name, String.ofList
      (trimmed.dropWhile fun c => separators.contains c && Atom.isBlank c).reverse)]
  | name :: names, cs =>
    let cs := cs.dropWhile fun c => separators.contains c && Atom.isBlank c
    let value := cs.takeWhile fun c => !separators.contains c
    let rest := cs.dropWhile fun c => !separators.contains c
    (name, String.ofList value) :: distribute separators names (rest.drop 1)

/-- `read` -/
def read : Builtin := fun words => do
  let names := words.filter fun word => word != "-r"
  let s ← get
  let (line, ended, rest) := lineOf s.input
  let cs := (Text.Utf8.decodeLossy line).toList
  let cs := if words.contains "-r" then cs else cs.filter (· != '\\')
  modify fun s => { s with input := rest }
  for entry in distribute s.separators names cs do
    modify (·.assign entry.1 entry.2)
  finish (if ended then 0 else 1)

/-- The commands of the shell itself by their names. -/
def find? (name : String) : Option Builtin :=
  match name with
  | ":" => some fun _ => finish 0
  | "true" => some fun _ => finish 0
  | "false" => some fun _ => finish 1
  | "echo" => some (ofProgram (Program.ofOutput Print.echo))
  | "printf" => some (named Program.printf "printf")
  | "test" => some (named Program.test "test")
  | "[" => some (named Program.bracket "[")
  | "exit" => some exit
  | "return" => some leaveFunction
  | "break" => some (leave "break" .loopEnd)
  | "continue" => some (leave "continue" .nextRound)
  | "export" => some exportAll
  | "readonly" => some exportAll
  | "local" => some declareLocal
  | "unset" => some unset
  | "set" => some setOptions
  | "shift" => some shift
  | "cd" => some cd
  | "pwd" => some pwd
  | "kill" => some kill
  | "read" => some read
  | "wait" => some wait
  | "trap" => some trap
  | "umask" => some fun words => do
    if words.isEmpty then put (bytes "0022\n")
    finish 0
  | _ => none

/-- The commands whose faults end the shell, and whose assignments stay. -/
def isSpecial (name : String) : Bool :=
  [":", ".", "break", "continue", "eval", "exec", "exit", "export", "readonly", "return", "set",
    "shift", "times", "trap", "unset"].contains name

end Builtin

end Testbed.Shell
