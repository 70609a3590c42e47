import Testbed.Environment.Scope

/-!
# Sessions

A session is an environment together with the scopes that were entered and not left yet.  Scopes are
numbered in the order in which they were entered, and may be left in any order.
-/

namespace Testbed.Environment

/-- An environment and its scopes, numbered from zero; those left are gone. -/
structure Session where
  environment : Environment
  scopes : List (Option Scope)

/-- One change of a session. -/
inductive Change where
  | enter (removals : List String) (updates : List (String × String))
  | leaveNewest
  | leaveNumber (number : Nat)
  | set (name value : String)
  | unset (name : String)
  /-- Enter a scope and panic inside it: the panic leaves the scope. -/
  | panicInside (removals : List String) (updates : List (String × String))

namespace Session

/-- A session before its first scope. -/
def start (environment : Environment) : Session := ⟨environment, []⟩

/-- Leave the scope of a number, if it is still open. -/
def leaveNumber (s : Session) (number : Nat) : Session :=
  match s.scopes[number]? with
  | some (some scope) => ⟨s.environment.leave scope, s.scopes.set number none⟩
  | _ => s

/-- The number of the newest scope that is still open. -/
def newest? (s : Session) : Option Nat :=
  (List.range s.scopes.length).reverse.find? fun number => (s.scopes[number]?).join.isSome

/-- Leave the newest open scope; without one nothing happens. -/
def leaveNewest (s : Session) : Session :=
  match s.newest? with
  | some number => s.leaveNumber number
  | none => s

/-- Leave all open scopes, newest first. -/
def leaveAll (s : Session) : Session :=
  (List.range s.scopes.length).reverse.foldl leaveNumber s

/-- Make a change.  The flag says whether it ended in a panic. -/
def apply (s : Session) : Change → Session × Bool
  | .enter removals updates =>
    match s.environment.enter removals updates with
    | (environment, some scope) => (⟨environment, s.scopes ++ [some scope]⟩, false)
    | (environment, none) => (⟨environment, s.scopes⟩, true)
  | .leaveNewest => (s.leaveNewest, false)
  | .leaveNumber number => (s.leaveNumber number, false)
  | .set name value =>
    match s.environment.set? name value with
    | some environment => ({ s with environment }, false)
    | none => (s, true)
  | .unset name =>
    match s.environment.unset? name with
    | some environment => ({ s with environment }, false)
    | none => (s, true)
  | .panicInside removals updates =>
    match s.environment.enter removals updates with
    | (environment, some scope) => ({ s with environment := environment.leave scope }, true)
    | (environment, none) => ({ s with environment }, true)

end Session

end Testbed.Environment
