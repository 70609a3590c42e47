import Testbed.Settings.Basic
import Testbed.Toml.Reader

/-!
# Settings files

A settings file is a TOML document with a table for each section.  Each key of a section must be one
of its fields and have a value of the field's type, and a field without a key has its preset value.
A section may also be an array with the values of its first fields in order.  The sections of the
log file and of the terminal are the exception: they take the fields of the format as their own, so
they must be tables, and a format of theirs that leaves the style out is a full one.
-/

namespace Testbed.Settings

/-- The value of a setting, as a value of a type. -/
abbrev Decoder (α : Type) := Toml → Option α

namespace Decoder

/-- A truth value. -/
def flag : Decoder Bool
  | .boolean b => some b
  | _ => none

/-- A text. -/
def text : Decoder String
  | .string s => some s
  | _ => none

/-- A list of texts. -/
def texts : Decoder (List String)
  | .array items => items.mapM text
  | _ => none

/-- A number: a float, or an integer of 64 bits with or without sign. -/
def number : Decoder Binary64.Extended
  | .float x => some x
  | .integer n =>
    if -2 ^ 63 ≤ n ∧ n < 2 ^ 64 then (Binary64.ofInt n).map .finite else none
  | _ => none

/-- One of some words. -/
def choice {α : Type} (words : List (String × α)) (word : String) : Option α :=
  (words.find? (·.1 == word)).map (·.2)

/-- Whether a value has nothing in it. -/
def isEmptyTable : Toml → Bool
  | .table [] => true
  | _ => false

/-- Whether a value has nothing in it, be it a table or an array. -/
def isEmptyCollection : Toml → Bool
  | .table [] => true
  | .array [] => true
  | _ => false

/-- One of some words: as a text, or as the only key of a table, whose value has to be bare. -/
def word {α : Type} (isBare : Toml → Bool) (words : List (String × α)) : Decoder α
  | .string s => choice words s
  | .table [(key, value)] => if isBare value then choice words key else none
  | _ => none

/-- When a new log file is begun. -/
def rotation : Decoder Rotation :=
  word isEmptyCollection [("never", .never), ("hourly", .hourly), ("daily", .daily)]

/-- The style of log lines. -/
def style : Decoder Style :=
  word isEmptyTable
    [("compact", .compact), ("full", .full), ("json", .json), ("pretty", .pretty)]

/-- The values of a section by the names of its fields. -/
abbrev Fields := String → Option Toml

/-- The fields of a section that must be a table. -/
def tableFields (names : List String) : Decoder Fields
  | .table entries =>
    if entries.all fun entry => names.contains entry.1 then some (Toml.entry? entries) else none
  | _ => none

/-- The fields of a section: a table, or an array with their values in order. -/
def fields (names : List String) : Decoder Fields
  | .array items => some fun name => (names.idxOf? name).bind fun i => items[i]?
  | j => tableFields names j

/-- Decode a field, with the preset value for one that is missing. -/
def field {α : Type} (values : Fields) (name : String) (decode : Decoder α) (preset : α) :
    Option α :=
  match values name with
  | none => some preset
  | some v => decode v

/-- The names of the fields of a format. -/
def formatNames : List String := ["style", "colors", "show_thread_id", "show_source"]

/-- The format of a section that has its fields. -/
def format (values : Fields) : Option Format := do
  let preset : Format := {}
  return {
    style := ← field values "style" style preset.style
    colors := ← field values "colors" flag preset.colors
    showThreadId := ← field values "show_thread_id" flag preset.showThreadId
    showSource := ← field values "show_source" flag preset.showSource }

/-- The section of the log file. -/
def logFile : Decoder LogFile := fun j => do
  let preset : LogFile := {}
  let values ← tableFields (["enabled", "dir", "name", "rotation"] ++ formatNames) j
  return {
    enabled := ← field values "enabled" flag preset.enabled
    directory := ← field values "dir" text preset.directory
    name := ← field values "name" text preset.name
    rotation := ← field values "rotation" rotation preset.rotation
    format := ← format values }

/-- The section of the terminal. -/
def logTerminal : Decoder LogTerminal := fun j => do
  let preset : LogTerminal := {}
  let values ← tableFields ("enabled" :: formatNames) j
  return {
    enabled := ← field values "enabled" flag preset.enabled
    format := ← format values }

/-- The section of the log. -/
def logging : Decoder Logging := fun j => do
  let preset : Logging := {}
  let values ← fields ["file", "stdout"] j
  return {
    file := ← field values "file" logFile preset.file
    terminal := ← field values "stdout" logTerminal preset.terminal }

/-- The section of the cache. -/
def cache : Decoder Cache.Setup := fun j => do
  let preset : Cache.Setup := {}
  let values ← fields ["enabled", "persistent", "dir"] j
  return {
    enabled := ← field values "enabled" flag preset.enabled
    persistent := ← field values "persistent" flag preset.persistent
    directory := ← field values "dir" text preset.directory }

/-- The section of the inventory. -/
def inventory : Decoder InventoryFiles := fun j => do
  let preset : InventoryFiles := {}
  let values ← fields ["files"] j
  return { files := ← field values "files" texts preset.files }

/-- The section of polling. -/
def polling : Decoder Polling := fun j => do
  let preset : Polling := {}
  let values ← fields ["timeout", "interval", "delay"] j
  return {
    timeout := ← field values "timeout" number preset.timeout
    interval := ← field values "interval" number preset.interval
    delay := ← field values "delay" number preset.delay }

/-- All settings. -/
def settings : Decoder Settings := fun j => do
  let preset : Settings := {}
  let values ← fields ["logging", "cache", "inventory", "poll"] j
  return {
    logging := ← field values "logging" logging preset.logging
    cache := ← field values "cache" cache preset.cache
    inventory := ← field values "inventory" inventory preset.inventory
    polling := ← field values "poll" polling preset.polling }

end Decoder

/-- The settings of a document. -/
def ofDocument? (entries : List (String × Toml)) : Option Settings :=
  Decoder.settings (.table entries)

/-- Read a settings file. -/
def parse? (text : String) : Option Settings := (Toml.read? text).bind ofDocument?

/-- What loading settings comes to. -/
inductive Loaded where
  | settings (s : Settings)
  /-- The file cannot be read, so the preset values are taken. -/
  | preset (cause : FileError)
  | malformed

/-- The text of the panic that a malformed file ends in. -/
def malformedText : String := "Failed to parse configuration file"

/-- Load the settings of a file. -/
def load (files : FileTree) (path : Path) : Loaded :=
  match files.readText path with
  | .error cause => .preset cause
  | .ok text =>
    match parse? text with
    | some s => .settings s
    | none => .malformed

end Testbed.Settings
