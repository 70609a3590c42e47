/-!
# Chains of errors

An error may have another error as its cause, and that one a cause of its own.  The full text of an
error shows the whole chain, each cause in brackets behind what it caused.
-/

namespace Testbed

/-- An error: its own text, and the texts of its causes, nearest first. -/
structure ErrorChain where
  text : String
  causes : List String
  deriving DecidableEq

namespace ErrorChain

/-- The texts of an error and its causes: `a (b (c))`. -/
def fullText (text : String) : List String → String
  | [] => text
  | cause :: causes => text ++ " (" ++ fullText cause causes ++ ")"

/-- The full text of an error. -/
def full (e : ErrorChain) : String := fullText e.text e.causes

/-- The texts of the whole chain, the error's own first. -/
def texts (e : ErrorChain) : List String := e.text :: e.causes

end ErrorChain

end Testbed
