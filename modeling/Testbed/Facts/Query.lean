import Testbed.Inventory.Visible

/-!
# Facts

The questions that can be asked about an inventory: the variables of a host, of the first host of a
group, and of the test server of a group of servers, which is its first host that is no neighbouring
virtual machine.  The restart settings of a test are taken from the variables visible to a host.
-/

namespace Testbed.Facts

/-- The kinds of questions. -/
inductive Query where
  | hostVars
  | hostVisibleVars
  | groupVisibleVars
  | testServerVars
  | testServerVisibleVars
  deriving DecidableEq

/-- Whether a host is one of the neighbouring virtual machines: `VM` and a digit begin its name. -/
def isNeighborMachine (host : String) : Bool :=
  match host.toList with
  | 'V' :: 'M' :: c :: _ => c.isDigit
  | _ => false

/-- The first host of a group. -/
def firstHost? (inv : Inventory) (group : String) : Option String :=
  (inv.groupHosts group).bind List.head?

/-- The test server of a group of servers. -/
def testServer? (inv : Inventory) (group : String) : Option String :=
  (inv.groupHosts group).bind fun hosts => hosts.find? fun host => !isNeighborMachine host

/-- The answer that an inventory gives to a question about a name. -/
def Query.answer (inv : Inventory) (name : String) : Query → Option Json.Vars
  | hostVars => inv.hostVars name
  | hostVisibleVars => inv.visibleVars name
  | groupVisibleVars => (firstHost? inv name).bind inv.visibleVars
  | testServerVars => (testServer? inv name).bind inv.hostVars
  | testServerVisibleVars => (testServer? inv name).bind inv.visibleVars

/-- The entries of an object, and none for anything else. -/
def objectEntries : Json → Option Json.Vars
  | .object members => some (Table.ofList members)
  | _ => none

/-- The variable that holds the restart settings: a table of settings by part of a test name. -/
def rebootVariable : String := "plt_reboot_dict"

/-- The settings of all entries whose key is part of a test name, in ascending order of the keys, so
that the greatest key decides. -/
def settingsOfTest (table : Json.Vars) (test : String) : Json.Vars :=
  table.entries.foldl
    (fun settings entry =>
      if Text.occursIn entry.1.toList test.toList then
        match objectEntries entry.2 with
        | some more => settings.merge more
        | none => settings
      else settings)
    ∅

/-- The restart settings of a test: those of the entries that match its name, and where they say
nothing those of the kind of restart. -/
def rebootControl (vars : Json.Vars) (test kind : String) : Json.Vars :=
  match (vars.get? rebootVariable).bind objectEntries with
  | none => ∅
  | some table =>
    let settings := settingsOfTest table test
    if settings.isEmpty then ((table.get? kind).bind objectEntries).getD ∅ else settings

end Testbed.Facts
