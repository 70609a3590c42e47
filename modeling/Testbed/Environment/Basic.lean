import Testbed.Table

/-!
# Environment variables

The environment is a table of variables.  Not every text can name a variable or be its value, so
setting and removing can fail, and a failure changes nothing.
-/

namespace Testbed

/-- The variables of a process. -/
abbrev Environment := Table String

namespace Environment

/-- Whether a text can name a variable: it is not empty and has neither `=` nor NUL in it. -/
def IsName (name : String) : Prop :=
  name ≠ "" ∧ '=' ∉ name.toList ∧ '\x00' ∉ name.toList

/-- Whether a text can be the value of a variable: it has no NUL in it. -/
def IsValue (value : String) : Prop :=
  '\x00' ∉ value.toList

instance (name : String) : Decidable (IsName name) :=
  inferInstanceAs (Decidable (_ ∧ _ ∧ _))

instance (value : String) : Decidable (IsValue value) :=
  inferInstanceAs (Decidable (¬ _))

/-- Set a variable. -/
def set? (env : Environment) (name value : String) : Option Environment :=
  if IsName name ∧ IsValue value then some (env.insert name value) else none

/-- Remove a variable, which need not exist. -/
def unset? (env : Environment) (name : String) : Option Environment :=
  if IsName name then some (env.erase name) else none

end Environment

end Testbed
