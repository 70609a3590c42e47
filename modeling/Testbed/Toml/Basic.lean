import Testbed.Binary64.Basic

/-!
# TOML values

The values that a TOML document can hold.  The entries of a table have different keys.
-/

namespace Testbed

/-- A TOML value. -/
inductive Toml where
  | string (value : String)
  | integer (value : Int)
  | float (value : Binary64.Extended)
  /-- A number beyond the greatest double: it may stand in a document, but has no value. -/
  | overlarge
  | boolean (value : Bool)
  /-- A date, a time or both, as written. -/
  | time (written : String)
  | array (items : List Toml)
  | table (entries : List (String × Toml))
  deriving Inhabited

namespace Toml

/-- The value of a key among the entries of a table. -/
def entry? (entries : List (String × Toml)) (key : String) : Option Toml :=
  (entries.find? (·.1 == key)).map (·.2)

end Toml

end Testbed
