import Testbed.Host.Basic
import Testbed.Text.Blank

/-!
# Scripted hosts

A scripted host executes nothing.  Rules say what results modules have, by the texts of the modules,
and the host keeps a list of all that it was asked to execute.
-/

namespace Testbed.Host.Scripted

/-- The result of the modules whose text contains a part. -/
structure Rule where
  part : String
  result : Result

/-- The text of a module. -/
def text : Module → String
  | .shell command => command
  | .command words => words
  | .copy source target => source ++ " " ++ target
  | .template source target vars =>
    source ++ " " ++ target ++ " "
      ++ ",".intercalate (vars.entries.map fun entry => entry.1 ++ "=" ++ entry.2)

/-- The result of the first rule that applies; without one a module succeeds. -/
def respond (rules : List Rule) (module : Module) : Result :=
  match rules.find? fun rule => Text.occursIn rule.part.toList (text module).toList with
  | some rule => rule.result
  | none => .changed

/-- A scripted host, whose state is the list of what it was asked to execute. -/
def host (name : String) (rules : List Rule) : Host (List String) where
  name
  execute module executed :=
    (respond rules module, executed ++ [module.name ++ ": " ++ text module])

end Testbed.Host.Scripted
