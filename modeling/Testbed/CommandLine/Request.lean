import Testbed.CommandLine.Arguments
import Testbed.Facts.Query
import Testbed.FileTree.Path

/-!
# Requests

What a command line asks the program to do.  The first operand is a command with options of its own.
The options of the settings file and of the inventory may stand before and behind the command, and
what is behind it counts.
-/

namespace Testbed.CommandLine

/-- What the program can be asked to do. -/
inductive Task where
  /-- Wait until a shell command succeeds. -/
  | wait (command : String) (timeout interval delay : Option String)
  /-- Wait until a connection can be made. -/
  | connect (address : String) (timeout : Option String)
  /-- Show facts about a name. -/
  | facts (query : Facts.Query) (name : String)
  /-- Remove facts from the cache. -/
  | cleanup (zone key : Option String)

/-- A task, with the settings file and the inventory files that are asked for. -/
structure Request where
  settingsFile : Option Path
  inventory : Option String
  task : Task

/-- Why a command line is no request. -/
inductive Refusal where
  | help
  /-- The version is asked for, perhaps of a command. -/
  | version (command : Option String)
  | misuse
  deriving DecidableEq

/-- The options that may stand before and behind a command. -/
def sharedParameters : List Parameter :=
  [{ name := "config", letter := some 'c' }, { name := "inventory", letter := some 'i' }]

/-- A command: its name, its own options, its operands and the task that these describe. -/
structure Command where
  name : String
  parameters : List Parameter := []
  operands : Operands := .one
  task : Matches → Task

/-- The only operand. -/
def Matches.operand (m : Matches) : String := m.operands.headD ""

/-- A command that shows facts.  Where it has a flag for that, the facts can be those that are
visible, which includes what groups say. -/
def factsCommand (name : String) (query : Facts.Query) (visible? : Option Facts.Query) :
    Command where
  name
  parameters := if visible?.isSome then [{ name := "visible", takesValue := false }] else []
  task m := .facts (if m.has "visible" then visible?.getD query else query) m.operand

/-- The commands. -/
def commands : List Command := [
  { name := "wait"
    parameters := [{ name := "timeout" }, { name := "interval" }, { name := "delay" }]
    operands := .afterDashes
    task := fun m =>
      .wait (" ".intercalate m.operands) (m.value? "timeout") (m.value? "interval")
        (m.value? "delay") },
  { name := "tcp-wait"
    parameters := [{ name := "timeout" }]
    task := fun m => .connect m.operand (m.value? "timeout") },
  factsCommand "host-vars" .hostVars (some .hostVisibleVars),
  factsCommand "group-vars" .groupVisibleVars none,
  factsCommand "server-vars" .testServerVars (some .testServerVisibleVars),
  { name := "cache-cleanup"
    parameters := [{ name := "zone" }, { name := "key" }]
    operands := .none
    task := fun m => .cleanup (m.value? "zone") (m.value? "key") }]

/-- The level of a command. -/
def Command.level (c : Command) : Level where
  parameters := sharedParameters ++ c.parameters
  operands := c.operands

/-- The level in front of the command. -/
def topLevel : Level where
  parameters := sharedParameters
  commands := helpName :: commands.map (·.name)

/-- The answer to a question for help: about the program, about a command or about the help. -/
def helpOn : List String → Refusal
  | [] => .help
  | [about] => if topLevel.commands.contains about then .help else .misuse
  | _ => .misuse

/-- The refusal of a reading that stopped. -/
def Stop.refusal (command : Option String) : Stop → Refusal
  | help => .help
  | version => .version command
  | misuse => .misuse

/-- The request of a command line. -/
def Request.ofArguments (arguments : List String) : Except Refusal Request :=
  match ({} : Reading).run topLevel arguments with
  | .error stop => .error (stop.refusal none)
  | .ok (_, none) => .error .misuse
  | .ok (r, some (name, rest)) =>
    match commands.find? (·.name == name) with
    | none => .error (helpOn rest)
    | some c =>
      match c.level.read rest with
      | .error stop => .error (stop.refusal (some name))
      | .ok m =>
        if r.isComplete topLevel then
          let shared (name : String) : Option String := (m.value? name).or (r.found.value? name)
          .ok { settingsFile := shared "config", inventory := shared "inventory", task := c.task m }
        else .error .misuse

end Testbed.CommandLine
