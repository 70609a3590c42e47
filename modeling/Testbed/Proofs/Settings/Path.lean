import Testbed.Settings.Decode

/-!
# Where settings stand in a document

Each setting has a path from the root of a document to its value, through the sections.  `Reads`
says that a setting is decoded from the value at its path, and has a preset value if there is none.
The settings of a section are read through the section: from its path if the section stands in the
document, and from its own preset value if not.  The style of the terminal is the one for which the
two preset values differ.
-/

namespace Testbed.Settings

/-! ## Paths -/

/-- The tables of a document. -/
inductive Group where
  | root
  | logging
  | file
  | terminal
  | cache
  | inventory
  | polling
  deriving DecidableEq

/-- The keys of a group in their order, which counts if the group is an array. -/
def Group.keys : Group → List String
  | root => ["logging", "cache", "inventory", "poll"]
  | logging => ["file", "stdout"]
  | file => ["enabled", "dir", "name", "rotation"] ++ Decoder.formatNames
  | terminal => "enabled" :: Decoder.formatNames
  | cache => ["enabled", "persistent", "dir"]
  | inventory => ["files"]
  | polling => ["timeout", "interval", "delay"]

/-- What a group has under a key. -/
def Group.entry? (g : Group) (key : String) : Toml → Option Toml
  | .table entries => Toml.entry? entries key
  | .array items => (g.keys.idxOf? key).bind fun i => items[i]?
  | _ => none

/-- A way into a document: a group and one of its keys, at each step. -/
abbrev Way := List (Group × String)

/-- The value to which a way leads. -/
def find? : Way → Toml → Option Toml
  | [], j => some j
  | (g, key) :: rest, j => (g.entry? key j).bind (find? rest)

theorem find?_append (front rest : Way) (j : Toml) :
    find? (front ++ rest) j = (find? front j).bind (find? rest) := by
  induction front generalizing j with
  | nil => rfl
  | cons step front ih =>
      rw [List.cons_append, find?, find?, Option.bind_assoc]
      exact congrArg _ (funext ih)

/-- A value is decoded from what a way leads to, and is the preset one if that is nothing. -/
def Reads {α : Type} (way : Way) (j : Toml) (decode : Decoder α) (preset value : α) : Prop :=
  match find? way j with
  | none => value = preset
  | some v => decode v = some value

section Reads

variable {α β : Type} {way : Way} {j : Toml} {decode : Decoder α} {preset value : α}

theorem Reads.of_none (h : Reads way j decode preset value) (hnone : find? way j = none) :
    value = preset := by
  rw [Reads, hnone] at h
  exact h

/-- A part of a section is read on a longer way, if the preset section has the preset part. -/
theorem Reads.part (h : Reads way j decode preset value) (part : α → β) {rest : Way}
    {decodePart : Decoder β}
    (inner : ∀ v section', decode v = some section' →
      Reads rest v decodePart (part preset) (part section')) :
    Reads (way ++ rest) j decodePart (part preset) (part value) := by
  rw [Reads] at h
  rw [Reads, find?_append]
  cases hfind : find? way j with
  | none =>
      rw [hfind] at h
      exact congrArg part h
  | some v =>
      rw [hfind] at h
      exact inner v value h

end Reads

/-! ## The fields of a group -/

open Decoder

section Fields

variable {α : Type} {g : Group} {j : Toml} {values : Fields}

theorem entry?_of_tableFields (h : tableFields g.keys j = some values) (key : String) :
    values key = g.entry? key j := by
  cases j with
  | table entries =>
      rw [tableFields, Option.ite_none_right_eq_some] at h
      cases h.2
      rfl
  | _ => cases h

theorem entry?_of_fields (h : Decoder.fields g.keys j = some values) (key : String) :
    values key = g.entry? key j := by
  rw [Decoder.fields.eq_def] at h
  split at h
  case h_1 items =>
      cases h
      rfl
  case h_2 => exact entry?_of_tableFields h key

theorem reads_field {key : String} {decode : Decoder α} {preset value : α}
    (hvalues : values key = g.entry? key j) (h : field values key decode preset = some value) :
    Reads [(g, key)] j decode preset value := by
  rw [field, hvalues] at h
  rw [Reads, find?]
  cases hentry : g.entry? key j with
  | none =>
      rw [hentry] at h
      exact (Option.some.inj h).symm
  | some v =>
      rw [hentry] at h
      exact h

end Fields

/-! ## The parts of each section -/

/-- The value of a setting of any kind. -/
inductive Value where
  | flag (b : Bool)
  | text (s : String)
  | texts (l : List String)
  | rotation (r : Rotation)
  | style (s : Style)
  | number (x : Binary64.Extended)
  deriving DecidableEq

/-- A setting of a format. -/
inductive Look where
  | style
  | colors
  | showThreadId
  | showSource
  deriving DecidableEq

namespace Look

def key : Look → String
  | style => "style"
  | colors => "colors"
  | showThreadId => "show_thread_id"
  | showSource => "show_source"

def decode : Look → Decoder Value
  | style => fun v => (Decoder.style v).map .style
  | colors | showThreadId | showSource => fun v => (flag v).map .flag

def get : Look → Format → Value
  | style => fun f => .style f.style
  | colors => fun f => .flag f.colors
  | showThreadId => fun f => .flag f.showThreadId
  | showSource => fun f => .flag f.showSource

end Look

/-- A setting is of one kind, so its value can be told with its kind. -/
theorem Reads.wrap {α β : Type} {way : Way} {j : Toml} {decode : Decoder α} {preset value : α}
    (h : Reads way j decode preset value) (kind : α → β) :
    Reads way j (fun v => (decode v).map kind) (kind preset) (kind value) := by
  rw [Reads] at h ⊢
  cases hfind : find? way j with
  | none =>
      rw [hfind] at h
      exact congrArg kind h
  | some v =>
      rw [hfind] at h
      exact congrArg (Option.map kind) h

theorem reads_format {g : Group} {j : Toml} {values : Fields} {f : Format}
    (hvalues : ∀ key, values key = g.entry? key j) (h : Decoder.format values = some f)
    (look : Look) : Reads [(g, look.key)] j look.decode (look.get {}) (look.get f) := by
  simp only [Decoder.format, Option.bind_eq_bind, Option.bind_eq_some_iff, Option.pure_def,
    Option.some.injEq] at h
  obtain ⟨style, hstyle, colors, hcolors, thread, hthread, source, hsource, rfl⟩ := h
  cases look with
  | style => exact (reads_field (hvalues _) hstyle).wrap Value.style
  | colors => exact (reads_field (hvalues _) hcolors).wrap Value.flag
  | showThreadId => exact (reads_field (hvalues _) hthread).wrap Value.flag
  | showSource => exact (reads_field (hvalues _) hsource).wrap Value.flag

section Sections

variable {j : Toml}

theorem reads_logFile {l : LogFile} (h : Decoder.logFile j = some l) :
    Reads [(.file, "enabled")] j flag ({} : LogFile).enabled l.enabled ∧
      Reads [(.file, "dir")] j text ({} : LogFile).directory l.directory ∧
      Reads [(.file, "name")] j text ({} : LogFile).name l.name ∧
      Reads [(.file, "rotation")] j rotation ({} : LogFile).rotation l.rotation ∧
      ∀ look : Look, Reads [(.file, look.key)] j look.decode (look.get {}) (look.get l.format) := by
  simp only [Decoder.logFile, Option.bind_eq_bind, Option.bind_eq_some_iff, Option.pure_def,
    Option.some.injEq] at h
  obtain ⟨values, hvalues, enabled, henabled, directory, hdirectory, name, hname, rotation,
    hrotation, format, hformat, rfl⟩ := h
  have hentry := entry?_of_tableFields (g := .file) hvalues
  exact ⟨reads_field (hentry _) henabled, reads_field (hentry _) hdirectory,
    reads_field (hentry _) hname, reads_field (hentry _) hrotation, reads_format hentry hformat⟩

theorem reads_logTerminal {l : LogTerminal} (h : Decoder.logTerminal j = some l) :
    Reads [(.terminal, "enabled")] j flag ({} : LogTerminal).enabled l.enabled ∧
      ∀ look : Look,
        Reads [(.terminal, look.key)] j look.decode (look.get {}) (look.get l.format) := by
  simp only [Decoder.logTerminal, Option.bind_eq_bind, Option.bind_eq_some_iff, Option.pure_def,
    Option.some.injEq] at h
  obtain ⟨values, hvalues, enabled, henabled, format, hformat, rfl⟩ := h
  have hentry := entry?_of_tableFields (g := .terminal) hvalues
  exact ⟨reads_field (hentry _) henabled, reads_format hentry hformat⟩

theorem reads_logging {l : Logging} (h : Decoder.logging j = some l) :
    Reads [(.logging, "file")] j Decoder.logFile ({} : Logging).file l.file ∧
      Reads [(.logging, "stdout")] j Decoder.logTerminal ({} : Logging).terminal l.terminal := by
  simp only [Decoder.logging, Option.bind_eq_bind, Option.bind_eq_some_iff, Option.pure_def,
    Option.some.injEq] at h
  obtain ⟨values, hvalues, file, hfile, terminal, hterminal, rfl⟩ := h
  have hentry := entry?_of_fields (g := .logging) hvalues
  exact ⟨reads_field (hentry _) hfile, reads_field (hentry _) hterminal⟩

theorem reads_cache {c : Cache.Setup} (h : Decoder.cache j = some c) :
    Reads [(.cache, "enabled")] j flag ({} : Cache.Setup).enabled c.enabled ∧
      Reads [(.cache, "persistent")] j flag ({} : Cache.Setup).persistent c.persistent ∧
      Reads [(.cache, "dir")] j text ({} : Cache.Setup).directory c.directory := by
  simp only [Decoder.cache, Option.bind_eq_bind, Option.bind_eq_some_iff, Option.pure_def,
    Option.some.injEq] at h
  obtain ⟨values, hvalues, enabled, henabled, persistent, hpersistent, directory, hdirectory,
    rfl⟩ := h
  have hentry := entry?_of_fields (g := .cache) hvalues
  exact ⟨reads_field (hentry _) henabled, reads_field (hentry _) hpersistent,
    reads_field (hentry _) hdirectory⟩

theorem reads_inventory {i : InventoryFiles} (h : Decoder.inventory j = some i) :
    Reads [(.inventory, "files")] j texts ({} : InventoryFiles).files i.files := by
  simp only [Decoder.inventory, Option.bind_eq_bind, Option.bind_eq_some_iff, Option.pure_def,
    Option.some.injEq] at h
  obtain ⟨values, hvalues, files, hfiles, rfl⟩ := h
  exact reads_field (entry?_of_fields (g := .inventory) hvalues _) hfiles

theorem reads_polling {p : Polling} (h : Decoder.polling j = some p) :
    Reads [(.polling, "timeout")] j number ({} : Polling).timeout p.timeout ∧
      Reads [(.polling, "interval")] j number ({} : Polling).interval p.interval ∧
      Reads [(.polling, "delay")] j number ({} : Polling).delay p.delay := by
  simp only [Decoder.polling, Option.bind_eq_bind, Option.bind_eq_some_iff, Option.pure_def,
    Option.some.injEq] at h
  obtain ⟨values, hvalues, timeout, htimeout, interval, hinterval, delay, hdelay, rfl⟩ := h
  have hentry := entry?_of_fields (g := .polling) hvalues
  exact ⟨reads_field (hentry _) htimeout, reads_field (hentry _) hinterval,
    reads_field (hentry _) hdelay⟩

theorem reads_root {s : Settings} (h : Decoder.settings j = some s) :
    Reads [(.root, "logging")] j Decoder.logging ({} : Settings).logging s.logging ∧
      Reads [(.root, "cache")] j Decoder.cache ({} : Settings).cache s.cache ∧
      Reads [(.root, "inventory")] j Decoder.inventory ({} : Settings).inventory s.inventory ∧
      Reads [(.root, "poll")] j Decoder.polling ({} : Settings).polling s.polling := by
  simp only [Decoder.settings, Option.bind_eq_bind, Option.bind_eq_some_iff, Option.pure_def,
    Option.some.injEq] at h
  obtain ⟨values, hvalues, logging, hlogging, cache, hcache, inventory, hinventory, polling,
    hpolling, rfl⟩ := h
  have hentry := entry?_of_fields (g := .root) hvalues
  exact ⟨reads_field (hentry _) hlogging, reads_field (hentry _) hcache,
    reads_field (hentry _) hinventory, reads_field (hentry _) hpolling⟩

end Sections

end Testbed.Settings
