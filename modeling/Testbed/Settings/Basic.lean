import Testbed.Binary64.Literal
import Testbed.Cache.Basic
import Testbed.Duration

/-!
# Settings

What can be set for the whole program: where it writes its log and how, how facts are cached, which
inventory files are read, and how conditions are polled.  Every field has a preset value.
-/

namespace Testbed

/-- When a new log file is begun. -/
inductive Settings.Rotation where
  | never
  | hourly
  | daily
  deriving DecidableEq

/-- The styles of log lines. -/
inductive Settings.Style where
  | compact
  | full
  | json
  | pretty
  deriving DecidableEq

/-- How log lines look. -/
structure Settings.Format where
  style : Settings.Style := .full
  colors : Bool := false
  showThreadId : Bool := false
  showSource : Bool := false
  deriving DecidableEq

/-- The log file. -/
structure Settings.LogFile where
  enabled : Bool := false
  directory : String := "/var/log"
  name : String := "dut-harness.log"
  rotation : Settings.Rotation := .never
  format : Settings.Format := {}
  deriving DecidableEq

/-- The log on the terminal. -/
structure Settings.LogTerminal where
  enabled : Bool := true
  format : Settings.Format := { style := .compact }
  deriving DecidableEq

/-- Where the log goes. -/
structure Settings.Logging where
  file : Settings.LogFile := {}
  terminal : Settings.LogTerminal := {}
  deriving DecidableEq

/-- The inventory files. -/
structure Settings.InventoryFiles where
  files : List String := ["ansible/inventory.json"]
  deriving DecidableEq

/-- How conditions are polled, in seconds. -/
structure Settings.Polling where
  timeout : Binary64.Extended := Binary64.ofDecimal false 60 0
  interval : Binary64.Extended := Binary64.ofDecimal false 1 0
  delay : Binary64.Extended := Binary64.ofDecimal false 0 0
  deriving DecidableEq

/-- All settings. -/
structure Settings where
  logging : Settings.Logging := {}
  cache : Cache.Setup := {}
  inventory : Settings.InventoryFiles := {}
  polling : Settings.Polling := {}
  deriving DecidableEq

end Testbed
