import Testbed.ErrorChain
import Testbed.Panic

/-!
# Checks

A condition may answer in several ways: with a truth value, with something or nothing, or with an
error around any of these.  `Check` reads all of them as a truth value or the text of an error.
-/

namespace Testbed.Poll

/-- The answers that can be read as a truth value, unless they are errors. -/
class Check (α : Type u) where
  check : α → Except String Bool

export Check (check)

/-- The errors that have a text. -/
class HasText (ε : Type u) where
  text : ε → String

instance : HasText String := ⟨id⟩

instance : HasText ErrorChain := ⟨ErrorChain.text⟩

instance : Check Bool := ⟨.ok⟩

instance {α : Type u} : Check (Option α) := ⟨fun answer => .ok answer.isSome⟩

/-- An error counts by its text, and what is not an error counts as it would alone. -/
instance {α : Type u} {ε : Type v} [Check α] [HasText ε] : Check (Except ε α) :=
  ⟨fun answer =>
    match answer with
    | .ok a => check a
    | .error e => .error (HasText.text e)⟩

/-- How one evaluation of a condition ends. -/
inductive Evaluation (α : Type u) where
  | answered (answer : α)
  | panicked (panic : Panic)

/-- Whether an evaluation shows the condition to hold; errors and panics show that it does not. -/
def Evaluation.holds {α : Type u} [Check α] : Evaluation α → Bool
  | answered answer =>
    match check answer with
    | .ok b => b
    | .error _ => false
  | panicked _ => false

end Testbed.Poll
