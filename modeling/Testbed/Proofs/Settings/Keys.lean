import Testbed.Proofs.Settings.Given
import Testbed.Proofs.Toml.Distinct

/-!
# The keys of a settings file

Every key of a document that is accepted is a field of the section that it stands in, on any level.
Two forms have keys of another kind: a word may be given as the only key of a table with nothing
under it, and a section that is given as an array may have more items than fields, which are not
looked at.  The value that a document gives a setting is the value that the setting has, whatever
else the document gives.
-/

namespace Testbed.Settings

open Toml (Step)

/-! ## Positions in a document -/

namespace Group

/-- The key that a step into a group stands for.  In an array that is decided by the order. -/
def keyAt? (g : Group) : Step → Option String
  | .key name => some name
  | .item i => g.keys[i]?

/-- The groups within a group. -/
def sections : Group → List (String × Group)
  | root => [("logging", logging), ("cache", cache), ("inventory", inventory), ("poll", polling)]
  | logging => [("file", file), ("stdout", terminal)]
  | _ => []

/-- The group to which a position leads from another group. -/
def follow? : Group → List Step → Option Group
  | g, [] => some g
  | g, step :: rest =>
    ((g.keyAt? step).bind fun key => g.sections.lookup key).bind fun inner => inner.follow? rest

/-- The words that can be given under a key. -/
def words : Group → String → List String
  | file, "rotation" => Rotation.words
  | file, "style" => Style.words
  | terminal, "style" => Style.words
  | _, _ => []

end Group

/-- What a key of a value may be, at a position in a group. -/
inductive Fits (g : Group) (position : List Step) (v : Toml) (key : String) : Prop
  /-- A field of the section that the value is. -/
  | field {inner : Group} (leads : g.follow? position = some inner) (h : key ∈ inner.keys)
  /-- A word that is given as a table with nothing else in it. -/
  | word {front : List Step} {step : Step} {inner : Group} {name : String}
      (split : position = front ++ [step]) (leads : g.follow? front = some inner)
      (stands : inner.keyAt? step = some name) (h : key ∈ inner.words name)
      (bare : v = .table [(key, .table [])] ∨ v = .table [(key, .array [])])
  /-- A part of an item for which a section has no field. -/
  | surplus {front back : List Step} {i : Nat} {inner : Group}
      (split : position = front ++ .item i :: back) (leads : g.follow? front = some inner)
      (h : inner.keys.length ≤ i)

/-- Every key within a value may be there, if the value stands for a group. -/
def AllFit (g : Group) (j : Toml) : Prop :=
  ∀ position v, Toml.at? position j = some v → ∀ key ∈ v.keys, Fits g position v key

/-- A value has no keys but a word. -/
def OnlyWord (words : List String) (j : Toml) : Prop :=
  ∀ position v, Toml.at? position j = some v → ∀ key ∈ v.keys,
    position = [] ∧ key ∈ words ∧ (v = .table [(key, .table [])] ∨ v = .table [(key, .array [])])

section Fits

variable {g inner : Group} {j v : Toml} {name : String} {step : Step}

theorem Group.idxOf?_keys {i : Nat} (h : g.keys[i]? = some name) :
    g.keys.idxOf? name = some i := by
  have hall : ∀ g : Group, ∀ i, ∀ hi : i < g.keys.length,
      g.keys.idxOf? g.keys[i] = some i := by
    intro g
    cases g <;> decide
  obtain ⟨hi, rfl⟩ := List.getElem?_eq_some_iff.mp h
  exact hall g i hi

theorem entry?_of_child? (hkey : g.keyAt? step = some name) (hchild : Toml.child? step j = some v) :
    g.entry? name j = some v := by
  rcases Toml.child?_eq_some hchild with ⟨_, _, rfl, rfl, hentry⟩ | ⟨_, _, rfl, rfl, hitem⟩
  · cases hkey
    exact hentry
  · simp only [Group.idxOf?_keys hkey, Option.bind_some, Group.entry?]
    exact hitem

theorem mem_keys_of_child? (hkeys : ∀ key ∈ j.keys, key ∈ g.keys)
    (hkey : g.keyAt? step = some name) (hchild : Toml.child? step j = some v) : name ∈ g.keys := by
  rcases Toml.child?_eq_some hchild with ⟨_, entries, rfl, rfl, hentry⟩ | ⟨i, items, rfl, -, -⟩
  · cases hkey
    exact hkeys name (List.mem_map.mpr ⟨_, Table.mem_of_find?_map hentry, rfl⟩)
  · exact List.mem_of_getElem? hkey

theorem Group.follow?_cons (hkey : g.keyAt? step = some name)
    (hinner : g.sections.lookup name = some inner) (rest : List Step) :
    g.follow? (step :: rest) = inner.follow? rest := by
  rw [Group.follow?, hkey, Option.bind_some, hinner, Option.bind_some]

theorem Group.follow?_append (front rest : List Step) :
    g.follow? (front ++ rest) = (g.follow? front).bind fun inner => inner.follow? rest := by
  induction front generalizing g with
  | nil => rfl
  | cons step front ih =>
      rw [List.cons_append, Group.follow?, Group.follow?]
      rcases (g.keyAt? step).bind fun key => g.sections.lookup key with - | inner
      · rfl
      · exact ih

/-- A key for which there are words is no section. -/
theorem Group.lookup_of_words {word : String} (h : word ∈ g.words name) :
    g.sections.lookup name = none := by
  cases g with
  | root | logging => cases h
  | file | terminal | cache | inventory | polling => rfl

/-- What stands in a section is a field of it. -/
theorem Fits.mem_keys {position : List Step} {key : String} (h : Fits g position v key)
    (hfollow : g.follow? position = some inner) : key ∈ inner.keys := by
  rcases h with ⟨leads, h⟩ | ⟨split, leads, stands, h, -⟩ | ⟨split, leads, h⟩
  · obtain rfl := Option.some.inj (leads.symm.trans hfollow)
    exact h
  · rw [split, Group.follow?_append, leads, Option.bind_some, Group.follow?, stands,
      Option.bind_some, Group.lookup_of_words h] at hfollow
    cases hfollow
  · rw [split, Group.follow?_append, leads, Option.bind_some, Group.follow?, Group.keyAt?,
      List.getElem?_eq_none_iff.mpr h] at hfollow
    cases hfollow

theorem Fits.within {rest : List Step} {key : String} (hkey : g.keyAt? step = some name)
    (hinner : g.sections.lookup name = some inner) (h : Fits inner rest v key) :
    Fits g (step :: rest) v key := by
  have hfollow := Group.follow?_cons hkey hinner
  rcases h with ⟨leads, h⟩ | ⟨split, leads, stands, h, bare⟩ | ⟨split, leads, h⟩
  · exact .field ((hfollow _).trans leads) h
  · subst split
    exact .word rfl ((hfollow _).trans leads) stands h bare
  · subst split
    exact .surplus rfl ((hfollow _).trans leads) h

/-- What a group has under a key is a section with keys of its own, or a value without them. -/
inductive EntryFits (g : Group) (name : String) (v : Toml) : Prop
  | inner {inner : Group} (leads : g.sections.lookup name = some inner) (h : AllFit inner v)
  | single (h : OnlyWord (g.words name) v)

/-- The keys of a group fit if they are fields, and what is under each of them fits. -/
theorem allFit_of_entries (hkeys : ∀ key ∈ j.keys, key ∈ g.keys)
    (h : ∀ name ∈ g.keys, ∀ v, g.entry? name j = some v → EntryFits g name v) : AllFit g j := by
  intro position v hat key hmem
  rcases position with - | ⟨step, rest⟩
  · cases hat
    exact .field rfl (hkeys key hmem)
  · obtain ⟨w, hchild, hrest⟩ := Toml.at?_cons_eq_some.mp hat
    rcases hkey : g.keyAt? step with - | name
    · -- Only an item can have no key, and only one after those of the fields.
      rcases step with name | i
      · cases hkey
      · exact .surplus (List.nil_append _).symm rfl (List.getElem?_eq_none_iff.mp hkey)
    · have hname := mem_keys_of_child? hkeys hkey hchild
      rcases h name hname w (entry?_of_child? hkey hchild) with ⟨hinner, hw⟩ | hw
      · exact (hw rest v hrest key hmem).within hkey hinner
      · obtain ⟨rfl, hword, hbare⟩ := hw rest v hrest key hmem
        exact .word (List.nil_append _).symm rfl hkey hword hbare

end Fits

/-! ## Single values -/

/-- The words of the kind of a value. -/
def Value.words : Value → List String
  | rotation _ => Rotation.words
  | style _ => Style.words
  | _ => []

theorem onlyWord_of_isScalar {words : List String} {j : Toml} (h : j.IsScalar) :
    OnlyWord words j := by
  intro position v hat key hkey
  rw [Toml.at?_of_isScalar h hat, Toml.keys_of_isScalar h] at hkey
  cases hkey

/-- Nothing that is empty has a key in it. -/
theorem keys_of_at?_bare {bare : Toml} (hbare : bare = .table [] ∨ bare = .array [])
    {position : List Step} {v : Toml} (hat : Toml.at? position bare = some v) : v.keys = [] := by
  rcases position with - | ⟨step, rest⟩
  · cases hat
    rcases hbare with rfl | rfl
    · rfl
    · rfl
  · obtain ⟨inner, hchild, -⟩ := Toml.at?_cons_eq_some.mp hat
    rcases hbare with rfl | rfl
    · cases step with
      | key name => cases hchild
      | item i => cases hchild
    · cases step with
      | key name => cases hchild
      | item i => cases hchild

theorem onlyWord_bare {words : List String} {word : String} (hword : word ∈ words) {bare : Toml}
    (hbare : bare = .table [] ∨ bare = .array []) : OnlyWord words (.table [(word, bare)]) := by
  intro position v hat key hkey
  rcases position with - | ⟨step, rest⟩
  · cases hat
    cases List.mem_singleton.mp hkey
    refine ⟨rfl, hword, ?_⟩
    rcases hbare with rfl | rfl
    · exact Or.inl rfl
    · exact Or.inr rfl
  · obtain ⟨inner, hchild, hrest⟩ := Toml.at?_cons_eq_some.mp hat
    rcases Toml.child?_eq_some hchild with ⟨_, _, -, heq, hinner⟩ | ⟨_, _, -, heq, -⟩
    · cases heq
      cases List.mem_singleton.mp (Table.mem_of_find?_map hinner)
      rw [keys_of_at?_bare hbare hrest] at hkey
      cases hkey
    · cases heq

theorem onlyWord_texts {words : List String} (l : List String) :
    OnlyWord words (.array (l.map .string)) := by
  intro position v hat key hkey
  rcases position with - | ⟨step, rest⟩
  · cases hat
    cases hkey
  · obtain ⟨inner, hchild, hrest⟩ := Toml.at?_cons_eq_some.mp hat
    rcases Toml.child?_eq_some hchild with ⟨_, _, -, heq, -⟩ | ⟨_, _, -, heq, hitem⟩
    · cases heq
    · cases heq
      obtain ⟨text, -, rfl⟩ := List.mem_map.mp (List.mem_of_getElem? hitem)
      have hscalar : (Toml.string text).IsScalar := trivial
      rw [Toml.at?_of_isScalar hscalar hrest] at hkey
      cases hkey

theorem onlyWord_of_denotes {v : Toml} {value : Value} (h : Denotes v value) :
    OnlyWord value.words v := by
  cases h with
  | flag | text | rotation | style | float | integer => exact onlyWord_of_isScalar trivial
  | texts l => exact onlyWord_texts l
  | rotationKey r hbare => exact onlyWord_bare r.word_mem hbare
  | styleKey s => exact onlyWord_bare s.word_mem (Or.inl rfl)

theorem EntryFits.of_denotes {g : Group} {name : String} {v : Toml} {value : Value}
    (h : Denotes v value) (hwords : ∀ word ∈ value.words, word ∈ g.words name) :
    EntryFits g name v := by
  apply EntryFits.single
  intro position v hat key hkey
  obtain ⟨hposition, hword, hbare⟩ := onlyWord_of_denotes h position v hat key hkey
  exact ⟨hposition, hwords key hword, hbare⟩

/-! ## The sections -/

open Decoder

section Sections

variable {g : Group} {j : Toml}

theorem keys_of_tableFields {values : Fields} (h : tableFields g.keys j = some values) :
    ∀ key ∈ j.keys, key ∈ g.keys := by
  rw [tableFields.eq_def] at h
  split at h
  case h_1 entries =>
      rw [Option.ite_none_right_eq_some] at h
      intro key hkey
      obtain ⟨entry, hentry, rfl⟩ := List.mem_map.mp hkey
      simpa using List.all_eq_true.mp h.1 entry hentry
  case h_2 => cases h

theorem keys_of_fields {values : Fields} (h : Decoder.fields g.keys j = some values) :
    ∀ key ∈ j.keys, key ∈ g.keys := by
  rw [Decoder.fields.eq_def] at h
  split at h
  case h_1 => exact List.forall_mem_nil _
  case h_2 => exact keys_of_tableFields h

theorem decode_of_entry?_eq_some {α : Type} {name : String} {decode : Decoder α} {preset value : α}
    (h : Reads [(g, name)] j decode preset value) {v : Toml} (hv : g.entry? name j = some v) :
    decode v = some value := by
  rw [Reads, find?, hv] at h
  exact h

/-- What is read under a key fits if it has no words but those of the key. -/
theorem EntryFits.of_reads {α : Type} {name : String} {decode : Decoder α} {preset value : α}
    {kind : α → Value} (h : Reads [(g, name)] j decode preset value)
    (denotes : ∀ {v a}, decode v = some a → Denotes v (kind a))
    (hwords : ∀ word ∈ (kind value).words, word ∈ g.words name) {v : Toml}
    (hv : g.entry? name j = some v) : EntryFits g name v :=
  .of_denotes (denotes (decode_of_entry?_eq_some h hv)) hwords

theorem EntryFits.of_flag {name : String} {preset b : Bool}
    (h : Reads [(g, name)] j flag preset b) {v : Toml} (hv : g.entry? name j = some v) :
    EntryFits g name v :=
  .of_reads h denotes_flag (List.forall_mem_nil _) hv

theorem EntryFits.of_text {name : String} {preset s : String}
    (h : Reads [(g, name)] j text preset s) {v : Toml} (hv : g.entry? name j = some v) :
    EntryFits g name v :=
  .of_reads h denotes_text (List.forall_mem_nil _) hv

theorem EntryFits.of_number {name : String} {preset x : Binary64.Extended}
    (h : Reads [(g, name)] j number preset x) {v : Toml} (hv : g.entry? name j = some v) :
    EntryFits g name v :=
  .of_reads h denotes_number (List.forall_mem_nil _) hv

/-- The fields of a format fit in a group that has the words of a style. -/
theorem EntryFits.of_look (hstyle : g.words "style" = Style.words) {f : Format}
    (h : ∀ look : Look, Reads [(g, look.key)] j look.decode (look.get {}) (look.get f))
    {name : String} (hname : name ∈ formatNames) {v : Toml} (hv : g.entry? name j = some v) :
    EntryFits g name v := by
  have hlook : ∃ look : Look, name = look.key := by
    simp only [formatNames, List.mem_cons, List.not_mem_nil, or_false] at hname
    rcases hname with rfl | rfl | rfl | rfl
    · exact ⟨.style, rfl⟩
    · exact ⟨.colors, rfl⟩
    · exact ⟨.showThreadId, rfl⟩
    · exact ⟨.showSource, rfl⟩
  obtain ⟨look, rfl⟩ := hlook
  refine .of_denotes (look.denotes (decode_of_entry?_eq_some (h look) hv)) ?_
  cases look with
  | style => exact fun word hword => hstyle ▸ hword
  | colors | showThreadId | showSource => exact List.forall_mem_nil _

theorem allFit_cache {c : Cache.Setup} (h : Decoder.cache j = some c) : AllFit .cache j := by
  obtain ⟨values, hvalues, -⟩ := Option.bind_eq_some_iff.mp h
  obtain ⟨henabled, hpersistent, hdirectory⟩ := reads_cache h
  refine allFit_of_entries (keys_of_fields hvalues) ?_
  intro name hname v hv
  simp only [Group.keys, List.mem_cons, List.not_mem_nil, or_false] at hname
  rcases hname with rfl | rfl | rfl
  · exact .of_flag henabled hv
  · exact .of_flag hpersistent hv
  · exact .of_text hdirectory hv

theorem allFit_inventory {i : InventoryFiles} (h : Decoder.inventory j = some i) :
    AllFit .inventory j := by
  obtain ⟨values, hvalues, -⟩ := Option.bind_eq_some_iff.mp h
  refine allFit_of_entries (keys_of_fields hvalues) ?_
  intro name hname v hv
  rw [Group.keys, List.mem_singleton] at hname
  subst hname
  exact .of_reads (reads_inventory h) denotes_texts (List.forall_mem_nil _) hv

theorem allFit_polling {p : Polling} (h : Decoder.polling j = some p) : AllFit .polling j := by
  obtain ⟨values, hvalues, -⟩ := Option.bind_eq_some_iff.mp h
  obtain ⟨htimeout, hinterval, hdelay⟩ := reads_polling h
  refine allFit_of_entries (keys_of_fields hvalues) ?_
  intro name hname v hv
  simp only [Group.keys, List.mem_cons, List.not_mem_nil, or_false] at hname
  rcases hname with rfl | rfl | rfl
  · exact .of_number htimeout hv
  · exact .of_number hinterval hv
  · exact .of_number hdelay hv

theorem allFit_file {l : LogFile} (h : Decoder.logFile j = some l) : AllFit .file j := by
  obtain ⟨values, hvalues, -⟩ := Option.bind_eq_some_iff.mp h
  obtain ⟨henabled, hdirectory, hname, hrotation, hlook⟩ := reads_logFile h
  refine allFit_of_entries (keys_of_tableFields hvalues) ?_
  intro name hkey v hv
  rw [Group.keys, List.mem_append] at hkey
  rcases hkey with hkey | hformat
  · simp only [List.mem_cons, List.not_mem_nil, or_false] at hkey
    rcases hkey with rfl | rfl | rfl | rfl
    · exact .of_flag henabled hv
    · exact .of_text hdirectory hv
    · exact .of_text hname hv
    · exact .of_reads hrotation denotes_rotation (fun _ hword => hword) hv
  · exact .of_look rfl hlook hformat hv

theorem allFit_terminal {l : LogTerminal} (h : Decoder.logTerminal j = some l) :
    AllFit .terminal j := by
  obtain ⟨values, hvalues, -⟩ := Option.bind_eq_some_iff.mp h
  obtain ⟨henabled, hlook⟩ := reads_logTerminal h
  refine allFit_of_entries (keys_of_tableFields hvalues) ?_
  intro name hkey v hv
  rcases List.mem_cons.mp hkey with rfl | hformat
  · exact .of_flag henabled hv
  · exact .of_look rfl hlook hformat hv

theorem allFit_logging {l : Logging} (h : Decoder.logging j = some l) : AllFit .logging j := by
  obtain ⟨values, hvalues, -⟩ := Option.bind_eq_some_iff.mp h
  obtain ⟨hfile, hterminal⟩ := reads_logging h
  refine allFit_of_entries (keys_of_fields hvalues) ?_
  intro name hname v hv
  simp only [Group.keys, List.mem_cons, List.not_mem_nil, or_false] at hname
  rcases hname with rfl | rfl
  · exact .inner rfl (allFit_file (decode_of_entry?_eq_some hfile hv))
  · exact .inner rfl (allFit_terminal (decode_of_entry?_eq_some hterminal hv))

/-- All keys of a document that has settings may be there. -/
theorem allFit_settings {s : Settings} (h : Decoder.settings j = some s) : AllFit .root j := by
  obtain ⟨values, hvalues, -⟩ := Option.bind_eq_some_iff.mp h
  obtain ⟨hlogging, hcache, hinventory, hpolling⟩ := reads_root h
  refine allFit_of_entries (keys_of_fields hvalues) ?_
  intro name hname v hv
  simp only [Group.keys, List.mem_cons, List.not_mem_nil, or_false] at hname
  rcases hname with rfl | rfl | rfl | rfl
  · exact .inner rfl (allFit_logging (decode_of_entry?_eq_some hlogging hv))
  · exact .inner rfl (allFit_cache (decode_of_entry?_eq_some hcache hv))
  · exact .inner rfl (allFit_inventory (decode_of_entry?_eq_some hinventory hv))
  · exact .inner rfl (allFit_polling (decode_of_entry?_eq_some hpolling hv))

end Sections

/-! ## Documents -/

/-- The way from the root of a document to a group. -/
def Group.wayTo : Group → Way
  | root => []
  | logging => [(root, "logging")]
  | file => Way.file
  | terminal => Way.terminal
  | cache => [(root, "cache")]
  | inventory => [(root, "inventory")]
  | polling => [(root, "poll")]

section Documents

variable {g inner : Group} {document j v : Toml} {name : String}

theorem wayTo_inner (h : g.sections.lookup name = some inner) :
    inner.wayTo = g.wayTo ++ [(g, name)] := by
  have hall : ∀ entry ∈ g.sections, entry.2.wayTo = g.wayTo ++ [(g, entry.1)] := by
    cases g <;> decide
  obtain ⟨before, after, hsections, -⟩ := List.lookup_eq_some_iff.mp h
  exact hall (name, inner) (by simp [hsections])

/-- A position to a group leads to where the way to it does. -/
theorem find?_wayTo {position : List Step} (hgroup : find? g.wayTo document = some j)
    (hfollow : g.follow? position = some inner) (hat : Toml.at? position j = some v) :
    find? inner.wayTo document = some v := by
  induction position generalizing g j with
  | nil =>
      cases hfollow
      cases hat
      exact hgroup
  | cons step rest ih =>
      obtain ⟨child, hchild, hrest⟩ := Toml.at?_cons_eq_some.mp hat
      obtain ⟨between, hbetween, hinner⟩ := Option.bind_eq_some_iff.mp hfollow
      obtain ⟨key, hkey, hlookup⟩ := Option.bind_eq_some_iff.mp hbetween
      refine ih ?_ hinner hrest
      rw [wayTo_inner hlookup, find?_append, hgroup, Option.bind_some, find?,
        entry?_of_child? hkey hchild, Option.bind_some, find?]

/-- The settings, one by one. -/
def Setting.all : List Setting :=
  let looks : List Look := [.style, .colors, .showThreadId, .showSource]
  [fileEnabled, fileDirectory, fileName, fileRotation] ++ looks.map fileLook ++
    terminalEnabled :: looks.map terminalLook ++
    [cacheEnabled, cachePersistent, cacheDirectory, inventoryFiles, pollTimeout, pollInterval,
      pollDelay]

/-- A key of a group is a section, or a setting is found by it. -/
theorem exists_setting (hkey : name ∈ g.keys) (hsingle : g.sections.lookup name = none) :
    ∃ setting : Setting, setting.way = g.wayTo ++ [(g, name)] := by
  have hall : ∀ key ∈ g.keys, g.sections.lookup key = none →
      ∃ setting ∈ Setting.all, setting.way = g.wayTo ++ [(g, key)] := by
    cases g <;> decide
  obtain ⟨setting, -, hway⟩ := hall name hkey hsingle
  exact ⟨setting, hway⟩

/-- A key of a section that is no section itself gives a setting its value. -/
theorem exists_given {document : List (String × Toml)} (distinct : Toml.Distinct (.table document))
    (fit : AllFit .root (.table document)) {position : List Step} {entries : List (String × Toml)}
    (hat : Toml.at? position (.table document) = some (.table entries))
    (hfollow : Group.root.follow? position = some inner) {entry : String × Toml}
    (hentry : entry ∈ entries) (hsingle : inner.sections.lookup entry.1 = none) :
    ∃ setting, given? document setting = some entry.2 := by
  have hkey := (fit position _ hat entry.1 (List.mem_map.mpr ⟨entry, hentry, rfl⟩)).mem_keys hfollow
  obtain ⟨setting, hway⟩ := exists_setting hkey hsingle
  refine ⟨setting, ?_⟩
  have hnodup := (distinct.at? hat).nodup_keys
  rw [given?, hway, find?_append, find?_wayTo rfl hfollow hat, Option.bind_some, find?,
    Group.entry?, Toml.entry?_of_mem hnodup hentry, Option.bind_some, find?]

end Documents

/-- In a document that is accepted no table has a key twice, and every key on any level is a field
of its section, or a word that is given as a table, or within an item of an array that no field of
its section takes.  What a section has under a key, if it is no section itself, is the value that
the document gives a setting, and the setting has this value. -/
theorem parse?_keys {text : String} {s : Settings} (h : parse? text = some s) :
    ∃ document, Toml.read? text = some document ∧
      (∀ position v, Toml.at? position (.table document) = some v →
        v.keys.Nodup ∧ ∀ key ∈ v.keys, Fits .root position v key) ∧
      (∀ position entries group,
        Toml.at? position (.table document) = some (.table entries) →
        Group.root.follow? position = some group →
        ∀ entry ∈ entries, group.sections.lookup entry.1 = none →
          ∃ setting, given? document setting = some entry.2) ∧
      ∀ setting v, given? document setting = some v → Denotes v (setting.get s) := by
  obtain ⟨document, hread, hdecode⟩ := Option.bind_eq_some_iff.mp h
  have distinct := Toml.distinct_read? hread
  have fit := allFit_settings hdecode
  refine ⟨document, hread, ?_, ?_, fun _ _ => denotes_of_given hdecode⟩
  · intro position v hat
    exact ⟨(distinct.at? hat).nodup_keys, fit position v hat⟩
  · intro position entries group hat hfollow entry hentry hsingle
    exact exists_given distinct fit hat hfollow hentry hsingle

/-- A section in braces, and one that is given as an array. -/
theorem parse?_keys_braces :
    let text := "logging = \x7b stdout = \x7b style = \"json\" \x7d \x7d\n" ++
      "cache = [false, true, \"facts\"]\n"
    ∃ s, parse? text = some s ∧ s.logging.terminal.format.style = .json ∧
      s.cache.directory = "facts" := by
  intro text
  have hcheck : ((Toml.read? text).bind fun document =>
      (Decoder.settings (.table document)).map fun _ =>
        ((given? document (.terminalLook .style)).bind Decoder.text,
          (given? document .cacheDirectory).bind Decoder.text)) =
      some (some "json", some "facts") := by decide +kernel
  obtain ⟨document, hread, hrest⟩ := Option.bind_eq_some_iff.mp hcheck
  obtain ⟨s, hdecode, hpair⟩ := Option.map_eq_some_iff.mp hrest
  obtain ⟨hstyle, hdirectory⟩ := Prod.mk.inj hpair
  have hparse : parse? text = some s := Option.bind_eq_some_iff.mpr ⟨document, hread, hdecode⟩
  obtain ⟨document', hread', -, -, hdenotes⟩ := parse?_keys hparse
  obtain rfl : document = document' := Option.some.inj (hread.symm.trans hread')
  obtain ⟨v, hv, htext⟩ := Option.bind_eq_some_iff.mp hstyle
  obtain ⟨w, hw, hfacts⟩ := Option.bind_eq_some_iff.mp hdirectory
  rw [text_eq_some htext] at hv
  rw [text_eq_some hfacts] at hw
  have hword : ∀ {name style}, Denotes (.string name) (.style style) → style.word = name := by
    rintro name style ⟨⟩
    rfl
  have htext : ∀ {name directory}, Denotes (.string name) (.text directory) → directory = name := by
    rintro name directory ⟨⟩
    rfl
  have hjson := hword (hdenotes _ _ hv)
  refine ⟨s, hparse, ?_, htext (hdenotes _ _ hw)⟩
  cases hstyle : s.logging.terminal.format.style with
  | json => rfl
  | compact | full | pretty =>
      rw [hstyle] at hjson
      exact absurd hjson (by decide)

/-- Every key on any level is a field of its section. -/
def FieldsOnly (document : List (String × Toml)) : Prop :=
  ∀ position v, Toml.at? position (.table document) = some v → ∀ key ∈ v.keys,
    ∃ group, Group.root.follow? position = some group ∧ key ∈ group.keys

/-- A word that is given as a table is a key, and so is one in an item that no field takes. -/
theorem not_fieldsOnly_word_surplus :
    let accepts (text : String) : Prop := ∃ document s, Toml.read? text = some document ∧
      parse? text = some s ∧ ¬FieldsOnly document
    accepts "[logging.file]\nrotation = \x7b daily = \x7b\x7d \x7d\n" ∧
      accepts "cache = [true, true, \"facts\", \x7b bogus = 1 \x7d]\n" := by
  intro accepts
  have haccepts : ∀ text position key, Group.root.follow? position = none →
      ((Toml.read? text).bind fun document => (Decoder.settings (.table document)).bind fun _ =>
        (Toml.at? position (.table document)).map Toml.keys) = some [key] →
      accepts text := by
    intro text position key hfollow hcheck
    obtain ⟨document, hread, hrest⟩ := Option.bind_eq_some_iff.mp hcheck
    obtain ⟨s, hdecode, hmap⟩ := Option.bind_eq_some_iff.mp hrest
    obtain ⟨v, hat, hkeys⟩ := Option.map_eq_some_iff.mp hmap
    refine ⟨document, s, hread, Option.bind_eq_some_iff.mpr ⟨document, hread, hdecode⟩, ?_⟩
    intro hfields
    obtain ⟨group, hgroup, -⟩ := hfields position v hat key (by simp [hkeys])
    rw [hfollow] at hgroup
    cases hgroup
  constructor
  · exact haccepts _ [.key "logging", .key "file", .key "rotation"] "daily" (by decide +kernel)
      (by decide +kernel)
  · exact haccepts _ [.key "cache", .item 3] "bogus" (by decide +kernel) (by decide +kernel)

end Testbed.Settings
