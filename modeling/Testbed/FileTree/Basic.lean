import Testbed.FileTree.Path
import Testbed.Text.Utf8

/-!
# File trees

Files and directories, each at a location: the names that lead to it from the working directory.
The working directory itself is always there.  Locations outside of it start with a name that no
file can have.  `node?` is the view of a tree, and the laws below say what each change does to it.
-/

namespace Testbed

/-- What can be found at a location. -/
inductive FileTree.Node where
  | file (contents : Text.Bytes)
  | directory
  deriving DecidableEq

/-- The names that lead to a file or directory. -/
abbrev FileTree.Location := List String

/-- Files and directories at their locations, and the directory that relative paths start from. -/
structure FileTree where
  nodes : List (FileTree.Location × FileTree.Node)
  current : FileTree.Location := []

/-- Why an operation on files fails. -/
inductive FileError where
  | notFound
  | permissionDenied
  | alreadyExists
  | notADirectory
  | isADirectory
  | invalidArgument
  | nameTooLong
  | directoryNotEmpty
  | notText
  | notARegularFile
  deriving DecidableEq

/-- What the system calls an error, and its number there; the last two are none of the system's. -/
def FileError.system? : FileError → Option (String × Nat)
  | notFound => some ("No such file or directory", 2)
  | permissionDenied => some ("Permission denied", 13)
  | alreadyExists => some ("File exists", 17)
  | notADirectory => some ("Not a directory", 20)
  | isADirectory => some ("Is a directory", 21)
  | invalidArgument => some ("Invalid argument", 22)
  | nameTooLong => some ("File name too long", 36)
  | directoryNotEmpty => some ("Directory not empty", 39)
  | notText => none
  | notARegularFile => none

/-- The wording of an error. -/
def FileError.message (e : FileError) : String :=
  match e.system? with
  | some (reason, number) => reason ++ " (os error " ++ toString number ++ ")"
  | none =>
    match e with
    | notText => "stream did not contain valid UTF-8"
    | _ => "the source path is neither a regular file nor a symlink to a regular file"

/-- The reason of an error without its number. -/
def FileError.reason (e : FileError) : String :=
  match e.system? with
  | some (reason, _) => reason
  | none => e.message

namespace FileTree

/-- The tree with an empty working directory. -/
def empty : FileTree := { nodes := [] }

/-- The location of everything outside the working directory. -/
def outside : Location := ["/"]

/-- What is at a location. -/
def node? (t : FileTree) (location : Location) : Option Node :=
  if location = [] || location = outside then some .directory
  else (t.nodes.find? (·.1 == location)).map (·.2)

/-- Put a file or directory at a location, in place of what was there. -/
def put (t : FileTree) (location : Location) (node : Node) : FileTree :=
  { t with nodes := (location, node) :: t.nodes.filter (·.1 != location) }

/-- Take what is at a location away, and with a directory all that is in it. -/
def removeAt (t : FileTree) (location : Location) : FileTree :=
  { t with nodes := t.nodes.filter fun entry => !location.isPrefixOf entry.1 }

/-- Take all that is in a directory away. -/
def clearAt (t : FileTree) (location : Location) : FileTree :=
  { t with
    nodes := t.nodes.filter fun entry => entry.1 == location || !location.isPrefixOf entry.1 }

/-- Whether a directory has something in it. -/
def hasEntries (t : FileTree) (location : Location) : Bool :=
  t.nodes.any fun entry => entry.1 != location && location.isPrefixOf entry.1

theorem node?_put (t : FileTree) (location : Location) (node : Node) (other : Location)
    (proper : location ≠ [] ∧ location ≠ outside) :
    (t.put location node).node? other = if other = location then some node else t.node? other := by
  have found : ∀ l : List (Location × Node), location ≠ other →
      ((l.filter (·.1 != location)).find? (·.1 == other)) = l.find? (·.1 == other) := by
    intro l h
    induction l with
    | nil => rfl
    | cons entry rest ih =>
      by_cases hn : entry.1 = location
      · have : entry.1 ≠ other := hn ▸ h
        simp_all
      · by_cases ho : entry.1 = other <;> simp_all
  by_cases h : location = other
  · subst h
    simp [node?, put, proper.1, proper.2]
  · simp [node?, put, found t.nodes h, h, Ne.symm h]

end FileTree

end Testbed
