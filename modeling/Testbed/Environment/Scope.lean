import Testbed.Environment.Basic

/-!
# Environment scopes

A scope sets some variables and removes others, and puts the environment back when it is left.  It
remembers the values of the variables it touches, and which of those it sets did not exist.  A
variable that it only removes and that did not exist is not remembered.
-/

namespace Testbed.Environment

/-- What a scope puts back: the variables it touched that existed, and the names of those it set
that did not. -/
structure Scope where
  restore : Table String
  added : List String

/-- What a scope entered with these lists has to put back. -/
def Scope.of (env : Environment) (removals : List String) (updates : List (String × String)) :
    Scope where
  restore := env.filter fun name _ => (updates.map (·.1) ++ removals).contains name
  added := (updates.map (·.1)).filter fun name => !env.contains name

/-- Apply changes in order.  At the first that cannot be made the ones before it stay, and the flag
says that one failed. -/
def applyAll {α : Type u} (change : Environment → α → Option Environment) (env : Environment) :
    List α → Environment × Bool
  | [] => (env, true)
  | x :: rest =>
    match change env x with
    | some env' => applyAll change env' rest
    | none => (env, false)

/-- Enter a scope: make the updates in order, then the removals.  There is a scope to leave only if
every one of them could be made. -/
def enter (env : Environment) (removals : List String) (updates : List (String × String)) :
    Environment × Option Scope :=
  match applyAll (fun env update => env.set? update.1 update.2) env updates with
  | (env', false) => (env', none)
  | (env', true) =>
    match applyAll unset? env' removals with
    | (env'', false) => (env'', none)
    | (env'', true) => (env'', some (Scope.of env removals updates))

/-- Leave a scope: give the remembered variables their values, then remove those it added. -/
def leave (env : Environment) (scope : Scope) : Environment :=
  scope.added.foldl Table.erase (env.insertAll scope.restore.entries)

end Testbed.Environment
