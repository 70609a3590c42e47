/-!
# Arguments of a command line

How a list of arguments is taken apart.  Options and flags may stand in any order before or behind
the operands.  An option takes its value from the same argument or from the next one, which must not
look like an option itself.  After a double minus all arguments are operands.  Reading stops at once
where help or the version is asked for, and at an argument that means nothing; that an option is
given twice or without a value, or that an operand is missing, counts only at the end.
-/

namespace Testbed.CommandLine

/-- An option, which takes a value, or a flag, which takes none. -/
structure Parameter where
  name : String
  letter : Option Char := none
  takesValue : Bool := true
  deriving DecidableEq

/-- The operands that are taken. -/
inductive Operands where
  | none
  | one
  /-- One or more, which must stand behind a double minus. -/
  | afterDashes
  deriving DecidableEq

/-- What the arguments at one level can be: those in front of a command, or those behind it. -/
structure Level where
  parameters : List Parameter
  operands : Operands := .none
  /-- The words that end the level. -/
  commands : List String := []

/-- Why no arguments are handed over. -/
inductive Stop where
  | help
  | version
  | misuse
  deriving DecidableEq

/-- The arguments of a level. -/
structure Matches where
  /-- The options and flags, each with its value. -/
  given : List (String × Option String) := []
  operands : List String := []

/-- The value of an option. -/
def Matches.value? (m : Matches) (name : String) : Option String :=
  (m.given.find? (·.1 == name)).bind (·.2)

/-- Whether a flag or an option is given. -/
def Matches.has (m : Matches) (name : String) : Bool := m.given.any (·.1 == name)

/-- How far the arguments of a level are read. -/
structure Reading where
  found : Matches := {}
  /-- The option that the next argument may be the value of. -/
  pending : Option String := none
  /-- Whether an option was left without its value. -/
  lacking : Bool := false
  /-- Whether there was a double minus. -/
  trailing : Bool := false

/-- The help flags and the version flags are known at every level. -/
def helpName : String := "help"

/-- The name of the version flag. -/
def versionName : String := "version"

namespace Reading

/-- Note an option or a flag. -/
def note (r : Reading) (name : String) (value : Option String) : Reading :=
  { r with
    found := { r.found with given := r.found.given ++ [(name, value)] }
    pending := none }

/-- Leave the pending option, if there is one, without a value. -/
def abandon (r : Reading) : Reading :=
  { r with pending := none, lacking := r.lacking || r.pending.isSome }

/-- Note an option, of which a value may be part of the same argument.  Equals signs in front of the
value do not count. -/
def option (r : Reading) (name : String) (value : Option (List Char)) : Reading :=
  match value with
  | some cs => r.note name (some (String.ofList (cs.dropWhile (· = '='))))
  | none => { r with pending := some name }

/-- Whether an argument looks like an option: a minus alone does not. -/
def looksLikeOption (argument : String) : Bool :=
  match argument.toList with
  | '-' :: _ :: _ => true
  | _ => false

/-- Read an argument with the name of an option or a flag.  However many minus signs may stand in
front of it. -/
def long (level : Level) (r : Reading) (argument : String) : Except Stop Reading :=
  let cs := argument.toList.dropWhile (· = '-')
  let name := String.ofList (cs.takeWhile (· != '='))
  let value := if cs.contains '=' then some ((cs.dropWhile (· != '=')).drop 1) else none
  match level.parameters.find? (·.name == name) with
  | some p => .ok (if p.takesValue then r.option name value else r.note name none)
  | none =>
    if name = helpName then .error .help
    else if name = versionName then .error .version
    else .error .misuse

/-- Read an argument with the letter of an option. -/
def short (level : Level) (r : Reading) (argument : String) : Except Stop Reading :=
  match argument.toList.drop 1 with
  | c :: rest =>
    match level.parameters.find? (·.letter == some c) with
    | some p => .ok (r.option p.name (if rest.isEmpty then none else some rest))
    | none =>
      if c = 'h' then .error .help
      else if c = 'V' then .error .version
      else .error .misuse
  | [] => .error .misuse

/-- Read an operand. -/
def operand (level : Level) (r : Reading) (argument : String) : Except Stop Reading :=
  let added := { r with found := { r.found with operands := r.found.operands ++ [argument] } }
  match level.operands with
  | .none => .error .misuse
  | .one => if r.found.operands.isEmpty then .ok added else .error .misuse
  | .afterDashes => if r.trailing then .ok added else .error .misuse

/-- Read an argument that is no command. -/
def step (level : Level) (r : Reading) (argument : String) : Except Stop Reading :=
  if r.trailing then r.operand level argument
  else if argument = "--" then .ok { r with trailing := true }
  else if looksLikeOption argument then
    if "--".toList.isPrefixOf argument.toList then r.abandon.long level argument
    else r.abandon.short level argument
  else
    match r.pending with
    | some name => .ok (r.note name (some argument))
    | none => r.operand level argument

/-- Whether an argument is the command that ends the level. -/
def isCommand (level : Level) (r : Reading) (argument : String) : Bool :=
  !r.trailing && r.pending.isNone && level.commands.contains argument

/-- Whether what was read is complete, and nothing is given twice. -/
def isComplete (level : Level) (r : Reading) : Bool :=
  !r.lacking && r.pending.isNone && decide (r.found.given.map (·.1)).Nodup
    && (level.operands = .none || !r.found.operands.isEmpty)

/-- Read the arguments of a level, up to the command that ends it. -/
def run (level : Level) (r : Reading) :
    List String → Except Stop (Reading × Option (String × List String))
  | [] => .ok (r, none)
  | argument :: rest =>
    if r.isCommand level argument then .ok (r, some (argument, rest))
    else
      match r.step level argument with
      | .error stop => .error stop
      | .ok r => run level r rest

end Reading

/-- Read the arguments of a level that no command ends. -/
def Level.read (level : Level) (arguments : List String) : Except Stop Matches :=
  match ({} : Reading).run level arguments with
  | .error stop => .error stop
  | .ok (r, _) => if r.isComplete level then .ok r.found else .error .misuse

end Testbed.CommandLine
