import Testbed.Proofs.Settings.Presets
import Testbed.Proofs.Table

/-!
# What a document gives is what is set

`Denotes` tells which value of a setting a value of a document stands for.  A setting to which a
document gives a value has the value that this stands for, whatever else the document gives.
-/

namespace Testbed.Settings

/-- The word for a time at which a new log file is begun. -/
def Rotation.word : Rotation → String
  | never => "never"
  | hourly => "hourly"
  | daily => "daily"

/-- The word for a style. -/
def Style.word : Style → String
  | compact => "compact"
  | full => "full"
  | json => "json"
  | pretty => "pretty"

/-- The words for the times at which a new log file is begun. -/
def Rotation.words : List String := ["never", "hourly", "daily"]

/-- The words for the styles. -/
def Style.words : List String := ["compact", "full", "json", "pretty"]

theorem Rotation.word_mem (r : Rotation) : r.word ∈ Rotation.words := by
  cases r <;> decide

theorem Style.word_mem (s : Style) : s.word ∈ Style.words := by
  cases s <;> decide

/-- A value of a document stands for the value of a setting.  A word may also be given as the only
key of a table, with nothing under it. -/
inductive Denotes : Toml → Value → Prop
  | flag (b : Bool) : Denotes (.boolean b) (.flag b)
  | text (s : String) : Denotes (.string s) (.text s)
  | texts (l : List String) : Denotes (.array (l.map .string)) (.texts l)
  | rotation (r : Rotation) : Denotes (.string r.word) (.rotation r)
  | rotationKey (r : Rotation) {bare : Toml} (h : bare = .table [] ∨ bare = .array []) :
      Denotes (.table [(r.word, bare)]) (.rotation r)
  | style (s : Style) : Denotes (.string s.word) (.style s)
  | styleKey (s : Style) : Denotes (.table [(s.word, .table [])]) (.style s)
  | float (x : Binary64.Extended) : Denotes (.float x) (.number x)
  | integer {n : Int} {x : Binary64} (h : Binary64.ofInt n = some x) :
      Denotes (.integer n) (.number (.finite x))

open Decoder

section Denotes

variable {v : Toml} {value : Value}

theorem denotes_flag {b : Bool} (h : flag v = some b) : Denotes v (.flag b) := by
  rw [flag.eq_def] at h
  split at h
  case h_1 =>
      cases h
      exact .flag b
  case h_2 => cases h

theorem text_eq_some {s : String} (h : text v = some s) : v = .string s := by
  rw [text.eq_def] at h
  split at h
  case h_1 =>
      cases h
      rfl
  case h_2 => cases h

theorem denotes_text {s : String} (h : text v = some s) : Denotes v (.text s) := by
  rw [text_eq_some h]
  exact .text s

theorem mapM_text_eq_some {items : List Toml} {l : List String} (h : items.mapM text = some l) :
    items = l.map .string := by
  induction items generalizing l with
  | nil =>
      cases h
      rfl
  | cons item rest ih =>
      rw [List.mapM_cons] at h
      obtain ⟨s, hs, h⟩ := Option.bind_eq_some_iff.mp h
      obtain ⟨later, hlater, h⟩ := Option.bind_eq_some_iff.mp h
      cases h
      rw [text_eq_some hs, ih hlater, List.map_cons]

theorem denotes_texts {l : List String} (h : texts v = some l) : Denotes v (.texts l) := by
  rw [texts.eq_def] at h
  split at h
  case h_1 items =>
      rw [mapM_text_eq_some h]
      exact .texts l
  case h_2 => cases h

theorem denotes_number {x : Binary64.Extended} (h : number v = some x) : Denotes v (.number x) := by
  rw [number.eq_def] at h
  split at h
  case h_1 =>
      cases h
      exact .float x
  case h_2 n =>
      rw [Option.ite_none_right_eq_some] at h
      obtain ⟨y, hy, rfl⟩ := Option.map_eq_some_iff.mp h.2
      exact .integer hy
  case h_3 => cases h

/-- A word is given as a text, or as a key. -/
theorem word_eq_some {α : Type} {isBare : Toml → Bool} {words : List (String × α)} {a : α}
    (h : word isBare words v = some a) : ∃ name, (name, a) ∈ words ∧
      (v = .string name ∨ ∃ bare, isBare bare = true ∧ v = .table [(name, bare)]) := by
  rw [word.eq_def] at h
  split at h
  case h_1 name => exact ⟨name, Table.mem_of_find?_map h, Or.inl rfl⟩
  case h_2 name bare =>
      rw [Option.ite_none_right_eq_some] at h
      exact ⟨name, Table.mem_of_find?_map h.2, Or.inr ⟨bare, h.1, rfl⟩⟩
  case h_3 => cases h

theorem denotes_rotation {r : Rotation} (h : rotation v = some r) : Denotes v (.rotation r) := by
  obtain ⟨name, hname, hv⟩ := word_eq_some h
  have hword : name = r.word := by
    simp only [List.mem_cons, List.not_mem_nil, or_false, Prod.mk.injEq] at hname
    rcases hname with ⟨rfl, rfl⟩ | ⟨rfl, rfl⟩ | ⟨rfl, rfl⟩ <;> rfl
  subst hword
  rcases hv with rfl | ⟨bare, hbare, rfl⟩
  · exact .rotation r
  · refine .rotationKey r ?_
    rw [isEmptyCollection.eq_def] at hbare
    split at hbare
    case h_1 => exact Or.inl rfl
    case h_2 => exact Or.inr rfl
    case h_3 => cases hbare

theorem denotes_style {s : Style} (h : style v = some s) : Denotes v (.style s) := by
  obtain ⟨name, hname, hv⟩ := word_eq_some h
  have hword : name = s.word := by
    simp only [List.mem_cons, List.not_mem_nil, or_false, Prod.mk.injEq] at hname
    rcases hname with ⟨rfl, rfl⟩ | ⟨rfl, rfl⟩ | ⟨rfl, rfl⟩ | ⟨rfl, rfl⟩ <;> rfl
  subst hword
  rcases hv with rfl | ⟨bare, hbare, rfl⟩
  · exact .style s
  · rw [isEmptyTable.eq_def] at hbare
    split at hbare
    case h_1 => exact .styleKey s
    case h_2 => cases hbare

theorem denotes_map {α : Type} {decode : Decoder α} {kind : α → Value}
    (hkind : ∀ {a}, decode v = some a → Denotes v (kind a))
    (h : (decode v).map kind = some value) : Denotes v value := by
  obtain ⟨a, ha, rfl⟩ := Option.map_eq_some_iff.mp h
  exact hkind ha

theorem Look.denotes (look : Look) (h : look.decode v = some value) : Denotes v value := by
  cases look with
  | style => exact denotes_map denotes_style h
  | colors | showThreadId | showSource => exact denotes_map denotes_flag h

theorem Setting.denotes (setting : Setting) (h : setting.decode v = some value) :
    Denotes v value := by
  cases setting with
  | fileEnabled | terminalEnabled | cacheEnabled | cachePersistent =>
      exact denotes_map denotes_flag h
  | fileDirectory | fileName | cacheDirectory => exact denotes_map denotes_text h
  | fileRotation => exact denotes_map denotes_rotation h
  | fileLook look | terminalLook look => exact look.denotes h
  | inventoryFiles => exact denotes_map denotes_texts h
  | pollTimeout | pollInterval | pollDelay => exact denotes_map denotes_number h

end Denotes

/-- A value that is given within a section is decoded, whatever the preset section has there. -/
theorem Reads.decode_of_find? {α β : Type} {way rest : Way} {j v : Toml} {decode : Decoder α}
    {preset value : α} (h : Reads way j decode preset value) (hv : find? (way ++ rest) j = some v)
    {decodePart : Decoder β} {presetPart part : β}
    (inner : ∀ w, decode w = some value → Reads rest w decodePart presetPart part) :
    decodePart v = some part := by
  rw [find?_append] at hv
  obtain ⟨w, hw, hrest⟩ := Option.bind_eq_some_iff.mp hv
  rw [Reads, hw] at h
  have hpart := inner w h
  rw [Reads, hrest] at hpart
  exact hpart

/-- A setting has the value that a document gives it. -/
theorem denotes_of_given {entries : List (String × Toml)} {s : Settings}
    (h : Decoder.settings (.table entries) = some s) {setting : Setting} {v : Toml}
    (hv : given? entries setting = some v) : Denotes v (setting.get s) := by
  by_cases hstyle : setting = .terminalLook .style
  · subst hstyle
    apply Look.denotes .style
    exact (reads_terminal h).decode_of_find? hv fun w hl => (reads_logTerminal hl).2 .style
  · apply setting.denotes
    have hreads := reads_setting h hstyle
    rw [given?] at hv
    rw [Reads, hv] at hreads
    exact hreads

end Testbed.Settings
