import Testbed.Proofs.Settings.Path

/-!
# Preset values

A setting to which a document gives no value has its preset value, with one exception.  A section
of the terminal takes the preset of formats for the style, and not its own: the log of the terminal
is compact without the section, and full with a section that leaves the style out.
-/

namespace Testbed.Settings

/-- All that can be set. -/
inductive Setting where
  | fileEnabled
  | fileDirectory
  | fileName
  | fileRotation
  | fileLook (look : Look)
  | terminalEnabled
  | terminalLook (look : Look)
  | cacheEnabled
  | cachePersistent
  | cacheDirectory
  | inventoryFiles
  | pollTimeout
  | pollInterval
  | pollDelay
  deriving DecidableEq

/-- The way to the section of the log file. -/
def Way.file : Way := [(.root, "logging"), (.logging, "file")]

/-- The way to the section of the terminal. -/
def Way.terminal : Way := [(.root, "logging"), (.logging, "stdout")]

namespace Setting

def way : Setting → Way
  | fileEnabled => Way.file ++ [(.file, "enabled")]
  | fileDirectory => Way.file ++ [(.file, "dir")]
  | fileName => Way.file ++ [(.file, "name")]
  | fileRotation => Way.file ++ [(.file, "rotation")]
  | fileLook look => Way.file ++ [(.file, look.key)]
  | terminalEnabled => Way.terminal ++ [(.terminal, "enabled")]
  | terminalLook look => Way.terminal ++ [(.terminal, look.key)]
  | cacheEnabled => [(.root, "cache"), (.cache, "enabled")]
  | cachePersistent => [(.root, "cache"), (.cache, "persistent")]
  | cacheDirectory => [(.root, "cache"), (.cache, "dir")]
  | inventoryFiles => [(.root, "inventory"), (.inventory, "files")]
  | pollTimeout => [(.root, "poll"), (.polling, "timeout")]
  | pollInterval => [(.root, "poll"), (.polling, "interval")]
  | pollDelay => [(.root, "poll"), (.polling, "delay")]

def get (s : Settings) : Setting → Value
  | fileEnabled => .flag s.logging.file.enabled
  | fileDirectory => .text s.logging.file.directory
  | fileName => .text s.logging.file.name
  | fileRotation => .rotation s.logging.file.rotation
  | fileLook look => look.get s.logging.file.format
  | terminalEnabled => .flag s.logging.terminal.enabled
  | terminalLook look => look.get s.logging.terminal.format
  | cacheEnabled => .flag s.cache.enabled
  | cachePersistent => .flag s.cache.persistent
  | cacheDirectory => .text s.cache.directory
  | inventoryFiles => .texts s.inventory.files
  | pollTimeout => .number s.polling.timeout
  | pollInterval => .number s.polling.interval
  | pollDelay => .number s.polling.delay

/-- How the value of a setting is decoded. -/
def decode : Setting → Decoder Value
  | fileEnabled | terminalEnabled | cacheEnabled | cachePersistent =>
    fun v => (Decoder.flag v).map .flag
  | fileDirectory | fileName | cacheDirectory => fun v => (Decoder.text v).map .text
  | fileRotation => fun v => (Decoder.rotation v).map .rotation
  | fileLook look | terminalLook look => look.decode
  | inventoryFiles => fun v => (Decoder.texts v).map .texts
  | pollTimeout | pollInterval | pollDelay => fun v => (Decoder.number v).map .number

end Setting

/-- The value that settings have if nothing gives another. -/
def Setting.preset (setting : Setting) : Value := setting.get {}

section Reads

variable {j : Toml} {s : Settings}

theorem reads_file (h : Decoder.settings j = some s) :
    Reads .file j Decoder.logFile ({} : Settings).logging.file s.logging.file :=
  (reads_root h).1.part Logging.file fun _ _ hlogging => (reads_logging hlogging).1

theorem reads_terminal (h : Decoder.settings j = some s) :
    Reads .terminal j Decoder.logTerminal ({} : Settings).logging.terminal s.logging.terminal :=
  (reads_root h).1.part Logging.terminal fun _ _ hlogging => (reads_logging hlogging).2

/-- Every setting but the style of the terminal is read on its way, with its own preset value. -/
theorem reads_setting (h : Decoder.settings j = some s) {setting : Setting}
    (hstyle : setting ≠ .terminalLook .style) :
    Reads setting.way j setting.decode setting.preset (setting.get s) := by
  obtain ⟨-, hcache, hinventory, hpolling⟩ := reads_root h
  cases setting with
  | fileEnabled =>
      exact ((reads_file h).part LogFile.enabled fun _ _ hl => (reads_logFile hl).1).wrap Value.flag
  | fileDirectory =>
      exact ((reads_file h).part LogFile.directory fun _ _ hl =>
        (reads_logFile hl).2.1).wrap Value.text
  | fileName =>
      exact ((reads_file h).part LogFile.name fun _ _ hl =>
        (reads_logFile hl).2.2.1).wrap Value.text
  | fileRotation =>
      exact ((reads_file h).part LogFile.rotation fun _ _ hl =>
        (reads_logFile hl).2.2.2.1).wrap Value.rotation
  | fileLook look =>
      exact (reads_file h).part (fun l => look.get l.format) fun _ _ hl =>
        (reads_logFile hl).2.2.2.2 look
  | terminalEnabled =>
      exact ((reads_terminal h).part LogTerminal.enabled fun _ _ hl =>
        (reads_logTerminal hl).1).wrap Value.flag
  | terminalLook look =>
      have hpreset : look.get ({} : LogTerminal).format = look.get {} := by
        cases look with
        | style => exact absurd rfl hstyle
        | _ => rfl
      refine (reads_terminal h).part (fun l => look.get l.format) fun v l hl => ?_
      rw [hpreset]
      exact (reads_logTerminal hl).2 look
  | cacheEnabled =>
      exact (hcache.part Cache.Setup.enabled fun _ _ hc => (reads_cache hc).1).wrap Value.flag
  | cachePersistent =>
      exact (hcache.part Cache.Setup.persistent fun _ _ hc => (reads_cache hc).2.1).wrap Value.flag
  | cacheDirectory =>
      exact (hcache.part Cache.Setup.directory fun _ _ hc => (reads_cache hc).2.2).wrap Value.text
  | inventoryFiles =>
      exact (hinventory.part InventoryFiles.files fun _ _ hi => reads_inventory hi).wrap Value.texts
  | pollTimeout =>
      exact (hpolling.part Polling.timeout fun _ _ hp => (reads_polling hp).1).wrap Value.number
  | pollInterval =>
      exact (hpolling.part Polling.interval fun _ _ hp => (reads_polling hp).2.1).wrap Value.number
  | pollDelay =>
      exact (hpolling.part Polling.delay fun _ _ hp => (reads_polling hp).2.2).wrap Value.number

end Reads

/-! ## Documents -/

/-- The value that a document gives a setting. -/
def given? (entries : List (String × Toml)) (setting : Setting) : Option Toml :=
  find? setting.way (.table entries)

/-- Whether a document has a section of the terminal. -/
def hasTerminal (entries : List (String × Toml)) : Bool := (find? .terminal (.table entries)).isSome

/-- Settings differ from the preset ones only in what a document gives. -/
def OnlyOverrides (entries : List (String × Toml)) (s : Settings) : Prop :=
  ∀ setting, given? entries setting = none → setting.get s = setting.preset

/-- The style of the terminal if a document leaves it out. -/
theorem style_of_left_out {entries : List (String × Toml)} {s : Settings}
    (h : Decoder.settings (.table entries) = some s)
    (hnone : given? entries (.terminalLook .style) = none) :
    s.logging.terminal.format.style = if hasTerminal entries then .full else .compact := by
  have hterminal := reads_terminal h
  rw [Reads] at hterminal
  rw [given?, Setting.way, find?_append] at hnone
  rw [hasTerminal]
  cases hfind : find? .terminal (.table entries) with
  | none =>
      rw [hfind] at hterminal
      rw [hterminal]
      rfl
  | some v =>
      rw [hfind] at hterminal hnone
      exact Value.style.inj (((reads_logTerminal hterminal).2 .style).of_none hnone)

/-- The document in a file. -/
def document? (files : FileTree) (path : Path) : Option (List (String × Toml)) :=
  (files.readText path).toOption.bind Toml.read?

theorem load_eq_settings {files : FileTree} {path : Path} {s : Settings} :
    load files path = .settings s ↔
      ∃ entries, document? files path = some entries ∧
        Decoder.settings (.table entries) = some s := by
  rw [load, document?]
  cases files.readText path with
  | error cause => simp [Except.toOption]
  | ok text =>
      have hparse : parse? text = some s ↔ ∃ entries, Toml.read? text = some entries ∧
          Decoder.settings (.table entries) = some s := Option.bind_eq_some_iff
      rw [Except.toOption, Option.bind_some, ← hparse]
      dsimp only
      cases parse? text with
      | none => simp
      | some s' => simp

/-- Settings that are loaded from a file have the preset value wherever the document gives none,
except for a style that a section of the terminal leaves out: this is the full one, and the preset
one is compact.  So the file only overrides what it sets if it has no such section, or one with a
style. -/
theorem load_onlyOverrides_iff {files : FileTree} {path : Path} {s : Settings}
    (h : load files path = .settings s) :
    ∃ entries, document? files path = some entries ∧
      (∀ setting, given? entries setting = none → setting.get s =
        if setting = .terminalLook .style ∧ hasTerminal entries = true then .style .full
        else setting.preset) ∧
      (OnlyOverrides entries s ↔
        (hasTerminal entries = true → given? entries (.terminalLook .style) ≠ none)) := by
  obtain ⟨entries, hdocument, hdecode⟩ := load_eq_settings.mp h
  have hpresets : ∀ setting, given? entries setting = none → setting.get s =
      if setting = .terminalLook .style ∧ hasTerminal entries = true then .style .full
      else setting.preset := by
    intro setting hnone
    by_cases hstyle : setting = .terminalLook .style
    · subst hstyle
      refine (congrArg Value.style (style_of_left_out hdecode hnone)).trans ?_
      cases hasTerminal entries with
      | true => rfl
      | false => rfl
    · rw [if_neg fun hboth => hstyle hboth.1]
      exact (reads_setting hdecode hstyle).of_none hnone
  refine ⟨entries, hdocument, hpresets, ?_⟩
  constructor
  · intro honly hterminal hnone
    have hfull := hpresets _ hnone
    rw [honly _ hnone, if_pos ⟨rfl, hterminal⟩] at hfull
    cases hfull
  · intro hgiven setting hnone
    rw [hpresets setting hnone, if_neg]
    rintro ⟨rfl, hterminal⟩
    exact hgiven hterminal hnone

/-- A file with a section of the terminal that gives the style. -/
theorem load_onlyOverrides_iff_styled :
    let text := "[logging.stdout]\nstyle = \"json\"\n[cache]\ndir = \"facts\"\n"
    let files : FileTree := { nodes := [(["c.toml"], .file (Text.Utf8.encode text))] }
    ∃ entries s, document? files "c.toml" = some entries ∧ load files "c.toml" = .settings s ∧
      OnlyOverrides entries s := by
  intro text files
  have hcheck : ((document? files "c.toml").bind fun entries =>
      (Decoder.settings (.table entries)).map fun _ =>
        (given? entries (.terminalLook .style)).isSome) = some true := by decide +kernel
  obtain ⟨entries, hdocument, hrest⟩ := Option.bind_eq_some_iff.mp hcheck
  obtain ⟨s, hdecode, hgiven⟩ := Option.map_eq_some_iff.mp hrest
  have hload : load files "c.toml" = .settings s :=
    load_eq_settings.mpr ⟨entries, hdocument, hdecode⟩
  obtain ⟨entries', hdocument', -, honly⟩ := load_onlyOverrides_iff hload
  obtain rfl : entries = entries' := Option.some.inj (hdocument.symm.trans hdocument')
  refine ⟨entries, s, hdocument, hload, honly.mpr fun _ hnone => ?_⟩
  rw [hnone] at hgiven
  cases hgiven

/-- A section of the terminal that leaves the style out changes it. -/
theorem not_onlyOverrides_terminal :
    let text := "[logging.stdout]\nenabled = true\n"
    let files : FileTree := { nodes := [(["c.toml"], .file (Text.Utf8.encode text))] }
    ∃ entries s, document? files "c.toml" = some entries ∧ load files "c.toml" = .settings s ∧
      ¬OnlyOverrides entries s := by
  intro text files
  have hcheck : ((document? files "c.toml").bind fun entries =>
      (Decoder.settings (.table entries)).map fun s =>
        ((given? entries (.terminalLook .style)).isNone, Setting.get s (.terminalLook .style))) =
      some (true, .style .full) := by decide +kernel
  obtain ⟨entries, hdocument, hrest⟩ := Option.bind_eq_some_iff.mp hcheck
  obtain ⟨s, hdecode, hpair⟩ := Option.map_eq_some_iff.mp hrest
  obtain ⟨hnone, hfull⟩ := Prod.mk.inj hpair
  refine ⟨entries, s, hdocument, load_eq_settings.mpr ⟨entries, hdocument, hdecode⟩, ?_⟩
  intro honly
  have hpreset := honly (.terminalLook .style) (Option.isNone_iff_eq_none.mp hnone)
  rw [hfull] at hpreset
  cases hpreset

end Testbed.Settings
