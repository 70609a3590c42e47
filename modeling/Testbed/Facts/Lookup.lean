import Testbed.Cache.Lookup
import Testbed.Facts.Query

/-!
# Cached facts

Each kind of question has a look-up of its own, which keeps its answers in the zone of the name that
was asked about.  An answer is stored together with the inventory files it was computed from, and
only counts for a question with exactly these files.
-/

namespace Testbed.Facts

/-- A question: the inventory files, and the name that is asked about. -/
structure Request where
  files : List Path
  name : String
  deriving DecidableEq

/-- The name of the look-up of a kind of question. -/
def Query.lookupName : Query → String
  | hostVars => "host_vars"
  | hostVisibleVars => "host_visible_vars"
  | groupVisibleVars => "group_visible_vars"
  | testServerVars => "test_server_vars"
  | testServerVisibleVars => "test_server_visible_vars"

/-- An answer with the files it was computed from. -/
structure Entry where
  files : List Path
  vars : Option Json.Vars

namespace Entry

open Json.Decoder (field? optional list string nullable)

/-- The document of an entry. -/
def encode (e : Entry) : Json :=
  .object [
    ("inv_files", Json.ofStrings e.files),
    ("vars", match e.vars with
      | some vars => Json.ofTable vars
      | none => .null)]

/-- The entry of a document: an object with the files and perhaps the variables, or an array of the
two. -/
def decode : Json.Decoder Entry
  | .object members => do
    let files ← (← field? members "inv_files").bind (list string)
    let vars ← optional (nullable Json.Decoder.vars) none (← field? members "vars")
    return { files, vars }
  | .array [files, vars] => do
    return { files := ← list string files, vars := ← nullable Json.Decoder.vars vars }
  | _ => none

end Entry

/-- Reads the inventory files of a question from a file tree. -/
abbrev Loader := FileTree → List Path → Except Inventory.LoadError Inventory

/-- The look-up of a kind of question.  The name asked about is the zone. -/
def Query.lookup (q : Query) (load : Loader) :
    Cache.Lookup Request (Option Json.Vars) Inventory.LoadError Entry where
  name := q.lookupName
  zone r := .ok r.name
  encode := Entry.encode
  decode := Entry.decode
  afterRead stored r :=
    stored.bind fun entry => if entry.files = r.files then some entry.vars else none
  beforeWrite vars r := { files := r.files, vars }
  compute files r := (load files r.files).map fun inv => q.answer inv r.name

/-- Ask a question.  The answer tells whether the inventory was loaded. -/
def Query.ask (q : Query) (w : Cache.Workspace) (r : Request) :
    Cache.Lookup.Answer Inventory.LoadError (Option Json.Vars) × Cache.Workspace :=
  (q.lookup Inventory.load).call w r

/-- Why there are no restart settings. -/
inductive RebootFailure where
  | lookup (e : Cache.Lookup.Failure Inventory.LoadError)
  | hostNotFound (host : String)

/-- The wording of the failure that is not one of the look-up. -/
def hostNotFoundMessage (host : String) : String :=
  "host " ++ host ++ " not found in inventory"

/-- Ask for the restart settings of a test on a host. -/
def askReboot (w : Cache.Workspace) (files : List Path) (host test kind : String) :
    (Except RebootFailure Json.Vars × Bool) × Cache.Workspace :=
  match Query.ask .hostVisibleVars w { files, name := host } with
  | (⟨.error e, computed⟩, w) => ((.error (.lookup e), computed), w)
  | (⟨.ok none, computed⟩, w) => ((.error (.hostNotFound host), computed), w)
  | (⟨.ok (some vars), computed⟩, w) => ((.ok (rebootControl vars test kind), computed), w)

/-- The look-ups as they are shown to a programmer. -/
def shown : String := "Facts \x7b .. \x7d"

end Testbed.Facts
