/-!
# Panics

A job, a condition or a handler may end in a panic, which carries a text or some other value.
-/

namespace Testbed

/-- What a panic carries. -/
inductive Panic where
  | text (message : String)
  | withoutText
  deriving DecidableEq

/-- The text of a panic, and a stock phrase for one that carries none. -/
def Panic.message : Panic → String
  | text message => message
  | withoutText => "unknown panic payload"

end Testbed
