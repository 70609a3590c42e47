import Testbed.CommandLine.Request
import Testbed.Facts.Lookup
import Testbed.Host.Address
import Testbed.Host.Local
import Testbed.Json.Printer
import Testbed.Settings.Decode

/-!
# The program

What happens when the program is called: the settings are loaded, the log file is opened, and the
task is carried out with a cache that lasts as long as the program.  The exit code tells whether the
task succeeded.
-/

namespace Testbed.CommandLine

/-- The name under which the program is called. -/
def programName : String := "dut-harness"

/-- The name and the version of the program. -/
def programTitle : String := "DUT test harness"

/-- The version of the program. -/
def programVersion : String := "0.1.0"

/-- What is written to the output or the errors. -/
inductive Written where
  | text (s : String)
  | help
  /-- How the program is called. -/
  | usage
  | panic (p : Panic)
  deriving DecidableEq

/-- The lines that tell how the program is called. -/
def usageText : String :=
  "USAGE:\n    " ++ programName ++ " [-c <file>] [-i <files>] <COMMAND>\n\nCOMMANDS:\n"
    ++ "".intercalate (commands.map fun c => "    " ++ c.name ++ "\n")

/-- The text that is written. -/
def Written.shown : Written → String
  | text s => s
  | help => programTitle ++ " " ++ programVersion ++ "\n\n" ++ usageText
  | usage => usageText
  | panic p => "panicked: " ++ p.message ++ "\n"

/-- What a call of the program comes to. -/
structure Outcome where
  exitCode : Nat
  output : Written := .text ""
  errors : Written := .text ""
  files : FileTree

/-- The line that tells the version.  A command goes by a name with the program in front, and has no
version of its own. -/
def versionLine : Option String → String
  | none => programTitle ++ " " ++ programVersion ++ "\n"
  | some command => programName ++ "-" ++ command ++ " \n"

/-- What the program answers to a command line that is no request. -/
def Refusal.outcome (files : FileTree) : Refusal → Outcome
  | help => { exitCode := 0, output := .help, files }
  | version command => { exitCode := 0, output := .text (versionLine command), files }
  | misuse => { exitCode := 1, errors := .usage, files }

/-- The settings file, unless another one is asked for. -/
def defaultSettingsFile : Path := "/etc/dut-harness.toml"

/-- The lines that tell that the settings cannot be loaded. -/
def presetNotice (cause : FileError) : String :=
  "Failed to load configuration file: " ++ cause.message
    ++ "\nFalling back to default configuration...\n"

/-- The path of the log file. -/
def logPath (log : Settings.LogFile) : Path :=
  if Path.isAbsolute log.name then log.name else Path.join log.directory log.name

/-- The text of the panic that ends the program if it has no log file. -/
def logFailure : String := "initializing rolling file appender failed"

/-- Make sure that a file exists. -/
def ensureFile (files : FileTree) (p : Path) : Except FileError FileTree :=
  if files.isFile p then .ok files else files.write p []

/-- Open the log file, if there is to be one, with the directory that it needs. -/
def openLog (files : FileTree) (log : Settings.LogFile) : FileTree × Option Panic :=
  let p := logPath log
  if !log.enabled then (files, none)
  else
    match ensureFile files p with
    | .ok files => (files, none)
    | .error _ =>
      let (files, failed) :=
        files.makeDirectories (Path.ofParts (Path.isAbsolute p) (Path.plainParts p).dropLast)
      match failed, ensureFile files p with
      | none, .ok files => (files, none)
      | _, _ => (files, some (.text logFailure))

/-- The inventory files that a list names, with commas between them.  Blanks around a name do not
count, and neither do names that are empty. -/
def inventoryFiles (list : String) : List Path :=
  ((Text.splitAtChar ',' list).map Text.trim).filter (· != "")

/-- How a task ends, apart from what it does to the files. -/
structure Report where
  exitCode : Nat := 0
  output : String := ""
  errors : String := ""
  deriving DecidableEq

/-- The report of a task that succeeds or fails without a word. -/
def Report.ofSuccess (succeeded : Bool) : Report := { exitCode := if succeeded then 0 else 1 }

/-- The report of a task with options that make no sense. -/
def Report.ofFault (message : String) : Report := { exitCode := 2, errors := message ++ "\n" }

/-- A duration that is given by an option, or else by the settings. -/
def durationOf (name : String) (given : Option String) (configured : Binary64.Extended) :
    Except String Duration :=
  match given with
  | some text =>
    match Duration.read? text with
    | some d => .ok d
    | none => .error ("invalid value for --" ++ name ++ ": " ++ text)
  | none =>
    match Duration.ofSeconds configured with
    | .ok d => .ok d
    | .error e =>
      .error ("invalid poll." ++ name ++ " in configuration file: " ++ e.message)

/-- The schedule of a poll. -/
def scheduleOf (preset : Settings.Polling) (timeout interval delay : Option String) :
    Except String Poll.Schedule := do
  let timeout ← durationOf "timeout" timeout preset.timeout
  let interval ← durationOf "interval" interval preset.interval
  let delay ← durationOf "delay" delay preset.delay
  if interval = .zero then .error "--interval must be greater than zero"
  else .ok { timeout, interval, delay }

/-- Poll a shell command on the local host until it succeeds. -/
def waitFor (command : String) (schedule : Poll.Schedule) (files : FileTree) : Report × FileTree :=
  let attempt (_ : Nat) (files : FileTree) : Bool × FileTree :=
    let (result, files) := (Host.localhost none).run (.shell command) false files
    (result.isOk, files)
  match Poll.run schedule .exact attempt files with
  | .ok r => (.ofSuccess r.satisfied, r.state)
  | .error _ => (.ofSuccess false, files)

/-- Show facts about a name. -/
def showFacts (query : Facts.Query) (inventory : List Path) (name : String) (w : Cache.Workspace) :
    Report × FileTree :=
  match query.ask w { files := inventory, name } with
  | (⟨.ok (some vars), _⟩, w) => ({ output := (Json.ofTable vars).spread ++ "\n" }, w.files)
  | (⟨.ok none, _⟩, w) =>
    ({ exitCode := 1, errors := name ++ " not found in inventory\n" }, w.files)
  | (⟨.error _, _⟩, w) => (.ofSuccess false, w.files)

/-- Remove facts from the cache. -/
def cleanup (zone key : Option String) (w : Cache.Workspace) : Report × FileTree :=
  if zone.isNone && key.isSome then (.ofFault "--key requires --zone", w.files)
  else
    let (result, w) := w.cleanup zone key
    (.ofSuccess result.isOk, w.files)

/-- Carry out a task.  What listens on the network has no part in the files, so it is given. -/
def Task.run (settings : Settings) (inventory : List Path)
    (listener : Option Host.Address) (files : FileTree) : Task → Report × FileTree
  | wait command timeout interval delay =>
    match scheduleOf settings.polling timeout interval delay with
    | .error message => (.ofFault message, files)
    | .ok schedule => waitFor command schedule files
  | connect address timeout =>
    match durationOf "timeout" timeout settings.polling.timeout with
    | .error message => (.ofFault message, files)
    | .ok timeout => (.ofSuccess (Host.Address.awaitConnection address timeout listener), files)
  | facts query name =>
    showFacts query inventory name ⟨.ofSetup settings.cache, files⟩
  | cleanup zone key => CommandLine.cleanup zone key ⟨.ofSetup settings.cache, files⟩

/-- The settings file of a request. -/
def Request.settingsPath (request : Request) : Path :=
  request.settingsFile.getD defaultSettingsFile

/-- The inventory files of a request. -/
def Request.inventoryPaths (request : Request) (settings : Settings) : List Path :=
  match request.inventory with
  | some list => inventoryFiles list
  | none => settings.inventory.files

/-- The zone of the cache that a request is about. -/
def Request.zone? (request : Request) : Option String :=
  match request.task with
  | .facts _ name => some name
  | .cleanup zone _ => zone
  | _ => none

/-- Carry out a request with settings, after a notice about them. -/
def Request.runWith (request : Request) (settings : Settings) (notice : String)
    (listener : Option Host.Address) (files : FileTree) : Outcome :=
  match openLog files settings.logging.file with
  | (files, some panic) => { exitCode := 101, errors := .panic panic, files }
  | (files, none) =>
    let (report, files) :=
      request.task.run settings (request.inventoryPaths settings) listener files
    { exitCode := report.exitCode
      output := .text report.output
      errors := .text (notice ++ report.errors)
      files }

/-- Carry out a request. -/
def Request.run (request : Request) (listener : Option Host.Address) (files : FileTree) : Outcome :=
  match Settings.load files request.settingsPath with
  | .settings settings => request.runWith settings "" listener files
  | .preset cause => request.runWith {} (presetNotice cause) listener files
  | .malformed =>
    { exitCode := 101, errors := .panic (.text Settings.malformedText), files }

/-- Call the program. -/
def run (arguments : List String) (listener : Option Host.Address) (files : FileTree) : Outcome :=
  match Request.ofArguments arguments with
  | .ok request => request.run listener files
  | .error refusal => refusal.outcome files

end Testbed.CommandLine
