import Mathlib.Data.List.Infix
import Testbed.Facts.Query
import Testbed.Proofs.Table

/-!
# The restart settings of a test

Every entry of the table of restart settings whose key is part of the name of a test applies to the
test.  The settings of all of them are merged, and for each setting the greatest key that has it
decides.  The entry of the kind of restart is looked at only if nothing was merged.
-/

namespace Testbed.Facts

variable {table : Json.Vars} {test name : String}

/-! ## Entries that apply -/

/-- The entry of a name is an object, with these settings. -/
def Enters (table : Json.Vars) (name : String) (settings : Json.Vars) : Prop :=
  ∃ members, table.get? name = some (.object members) ∧ settings = Table.ofList members

/-- The settings apply to a test: they are entered under a part of its name. -/
def Applies (table : Json.Vars) (test : String) (entry : String × Json.Vars) : Prop :=
  entry.1.toList <:+: test.toList ∧ Enters table entry.1 entry.2

/-- For a setting, the greatest key that applies to a test and has it gives its value. -/
def Decides (table : Json.Vars) (test name : String) (value : Json) : Prop :=
  ∃ entry, Applies table test entry ∧ entry.2.get? name = some value ∧
    ∀ later, Applies table test later → entry.1 < later.1 → later.2.get? name = none

theorem occursIn_iff {part text : List Char} : Text.occursIn part text = true ↔ part <:+: text := by
  induction text with
  | nil => rw [Text.occursIn, List.isEmpty_iff, List.infix_nil]
  | cons c rest ih =>
      rw [Text.occursIn, Bool.or_eq_true, List.isPrefixOf_iff_prefix, ih, List.infix_cons_iff]

theorem objectEntries_eq_some_iff {j : Json} {settings : Json.Vars} :
    objectEntries j = some settings ↔
      ∃ members, j = .object members ∧ settings = Table.ofList members := by
  rw [objectEntries.eq_def]
  split
  case h_1 members => simp [eq_comm]
  case h_2 hother =>
      refine iff_of_false (by simp) ?_
      rintro ⟨members, rfl, -⟩
      exact hother members rfl

theorem bind_objectEntries_eq_some_iff {settings : Json.Vars} :
    (table.get? name).bind objectEntries = some settings ↔ Enters table name settings := by
  simp only [Option.bind_eq_some_iff, objectEntries_eq_some_iff, Enters]
  constructor
  · rintro ⟨_, hget, members, rfl, hsettings⟩
    exact ⟨members, hget, hsettings⟩
  · rintro ⟨members, hget, hsettings⟩
    exact ⟨_, hget, members, rfl, hsettings⟩

theorem bind_objectEntries_eq_none_iff :
    (table.get? name).bind objectEntries = none ↔ ∀ settings, ¬Enters table name settings := by
  simp only [Option.eq_none_iff_forall_ne_some, ne_eq, bind_objectEntries_eq_some_iff]

/-- The settings that an entry gives to a test. -/
def applied? (test : String) (entry : String × Json) : Option (String × Json.Vars) :=
  if Text.occursIn entry.1.toList test.toList then
    (objectEntries entry.2).map fun settings => (entry.1, settings)
  else none

/-- The entries that apply to a test, in ascending order. -/
def applying (table : Json.Vars) (test : String) : List (String × Json.Vars) :=
  table.entries.filterMap (applied? test)

theorem applied?_eq_some_iff {entry : String × Json} {found : String × Json.Vars} :
    applied? test entry = some found ↔
      entry.1.toList <:+: test.toList ∧ entry.1 = found.1 ∧
        objectEntries entry.2 = some found.2 := by
  obtain ⟨key, settings⟩ := found
  rw [applied?, Option.ite_none_right_eq_some, occursIn_iff, Option.map_eq_some_iff]
  apply and_congr_right
  intro _
  constructor
  · rintro ⟨_, hsettings, hfound⟩
    cases hfound
    exact ⟨rfl, hsettings⟩
  · rintro ⟨rfl, hsettings⟩
    exact ⟨settings, hsettings, rfl⟩

theorem mem_applying {entry : String × Json.Vars} :
    entry ∈ applying table test ↔ Applies table test entry := by
  rw [applying, List.mem_filterMap, Applies, ← bind_objectEntries_eq_some_iff,
    Option.bind_eq_some_iff]
  simp only [applied?_eq_some_iff, ← Table.mem_entries]
  constructor
  · rintro ⟨⟨_, j⟩, hmem, hpart, rfl, hsettings⟩
    exact ⟨hpart, j, hmem, hsettings⟩
  · rintro ⟨hpart, j, hmem, hsettings⟩
    exact ⟨(entry.1, j), hmem, hpart, rfl, hsettings⟩

theorem applying_ascending (table : Json.Vars) (test : String) :
    (applying table test).Pairwise fun a b => a.1 < b.1 := by
  apply table.ascending.filterMap
  intro a b hlt a' ha b' hb
  obtain ⟨-, hkey, -⟩ := applied?_eq_some_iff.mp ha
  obtain ⟨-, hkey', -⟩ := applied?_eq_some_iff.mp hb
  rw [← hkey, ← hkey']
  exact hlt

/-! ## The merged settings -/

/-- The settings of some entries, merged in their order. -/
def merged (entries : List (String × Json.Vars)) : Json.Vars :=
  entries.foldl (fun settings entry => settings.merge entry.2) ∅

theorem settingsOfTest_eq_merged (table : Json.Vars) (test : String) :
    settingsOfTest table test = merged (applying table test) := by
  rw [settingsOfTest, merged, applying, List.foldl_filterMap]
  congr 1
  funext settings entry
  rw [applied?]
  split
  · rcases objectEntries entry.2 with - | more
    · rfl
    · rfl
  · rfl

theorem get?_merged_applying {value : Json} :
    (merged (applying table test)).get? name = some value ↔ Decides table test name value := by
  rw [merged, Table.get?_foldl_merge, Table.get?_empty, Option.or_none,
    Table.findSome?_reverse_of_ascending (applying_ascending table test)]
  simp only [mem_applying, Decides]

theorem rebootControl_of_not_entered {vars : Json.Vars}
    (h : ∀ table, ¬Enters vars rebootVariable table) (test kind : String) :
    rebootControl vars test kind = ∅ := by
  rw [rebootControl, bind_objectEntries_eq_none_iff.mpr h]

theorem rebootControl_of_entered {vars : Json.Vars} (h : Enters vars rebootVariable table)
    (test kind : String) :
    rebootControl vars test kind =
      if (merged (applying table test)).isEmpty then
        ((table.get? kind).bind objectEntries).getD ∅
      else merged (applying table test) := by
  rw [rebootControl, bind_objectEntries_eq_some_iff.mpr h]
  simp only [settingsOfTest_eq_merged]

/-- The settings of a test are those of the entries that apply to it, merged in ascending order of
their keys, so that for each setting the greatest key that has it decides.  If there is none, they
are those of the kind of restart, and without an entry for it there are none. -/
theorem rebootControl_decided (vars : Json.Vars) (test kind : String) :
    ((∀ table, ¬Enters vars "plt_reboot_dict" table) → rebootControl vars test kind = ∅) ∧
    ∀ table, Enters vars "plt_reboot_dict" table →
      ∃ entries, entries.Pairwise (fun a b => a.1 < b.1) ∧
        (∀ entry, entry ∈ entries ↔ Applies table test entry) ∧
        (∀ name value, (merged entries).get? name = some value ↔ Decides table test name value) ∧
        (merged entries ≠ ∅ → rebootControl vars test kind = merged entries) ∧
        (merged entries = ∅ →
          (∀ settings, Enters table kind settings → rebootControl vars test kind = settings) ∧
          ((∀ settings, ¬Enters table kind settings) → rebootControl vars test kind = ∅)) := by
  refine ⟨fun h => rebootControl_of_not_entered h test kind, ?_⟩
  intro table htable
  have hcontrol := rebootControl_of_entered htable test kind
  refine ⟨applying table test, applying_ascending table test, fun _ => mem_applying,
    fun _ _ => get?_merged_applying, ?_, ?_⟩
  · intro hsome
    rw [hcontrol, if_neg (Table.isEmpty_iff.not.mpr hsome)]
  · intro hempty
    rw [hcontrol, if_pos (Table.isEmpty_iff.mpr hempty)]
    constructor
    · intro settings hkind
      rw [bind_objectEntries_eq_some_iff.mpr hkind, Option.getD_some]
    · intro hkind
      rw [bind_objectEntries_eq_none_iff.mpr hkind, Option.getD_none]

/-- Two keys are part of the name of the test, a third one is that of an array, and the kind of
restart has a setting that neither of them has. -/
theorem rebootControl_decided_overlapping :
    let int (n : Int) : Json := .number (.int n)
    let members : List (String × Json) :=
      [("cold", .object [("step", int 5), ("wait", int 600)]), ("test", .array [int 1]),
        ("test_r", .object [("wait", int 1), ("timeout", int 300)]),
        ("test_reload", .object [("wait", int 60)])]
    let table := Table.ofList members
    let vars := Table.ofList [("plt_reboot_dict", .object members)]
    let seconds := Json.Decoder.integer 0 600
    Enters vars "plt_reboot_dict" table ∧
      (∃ wait, Decides table "test_reload.py" "wait" wait ∧ seconds wait = some 60) ∧
      (∃ timeout, Decides table "test_reload.py" "timeout" timeout ∧ seconds timeout = some 300) ∧
      (rebootControl vars "test_reload.py" "cold").names = ["timeout", "wait"] ∧
      (rebootControl vars "test_acl.py" "cold").names = ["step", "wait"] := by
  intro int members table vars seconds
  have hvars : Enters vars "plt_reboot_dict" table := ⟨members, rfl, rfl⟩
  have hcold : Enters table "cold" (Table.ofList [("step", int 5), ("wait", int 600)]) :=
    ⟨_, by simp [table, members, Table.get?_ofList, List.lookup_cons], rfl⟩
  obtain ⟨hwait, htimeout, hnames, hacl, hother⟩ :
      ((rebootControl vars "test_reload.py" "cold").get? "wait").bind seconds = some 60 ∧
        ((rebootControl vars "test_reload.py" "cold").get? "timeout").bind seconds = some 300 ∧
        (rebootControl vars "test_reload.py" "cold").names = ["timeout", "wait"] ∧
        (rebootControl vars "test_acl.py" "cold").names = ["step", "wait"] ∧
        (Table.ofList [("step", int 5), ("wait", int 600)]).names ≠ ["timeout", "wait"] := by
    decide +kernel
  obtain ⟨entries, -, -, hdecides, hmerged, hempty⟩ :=
    (rebootControl_decided vars "test_reload.py" "cold").2 table hvars
  have hcontrol : rebootControl vars "test_reload.py" "cold" = merged entries := by
    apply hmerged
    intro hnone
    rw [(hempty hnone).1 _ hcold] at hnames
    exact hother hnames
  rw [hcontrol] at hwait htimeout
  obtain ⟨wait, hwait, hsixty⟩ := Option.bind_eq_some_iff.mp hwait
  obtain ⟨timeout, htimeout, hthree⟩ := Option.bind_eq_some_iff.mp htimeout
  exact ⟨hvars, ⟨wait, (hdecides _ _).mp hwait, hsixty⟩,
    ⟨timeout, (hdecides _ _).mp htimeout, hthree⟩, hnames, hacl⟩

end Testbed.Facts
