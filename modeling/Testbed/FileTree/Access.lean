import Testbed.FileTree.Basic

/-!
# Access by path

Operations that name files by paths.  A path is walked part by part from the working directory; each
part but the last must lead to a directory that exists, and so must the last one if a slash follows
it.  An operation that fails leaves the tree as it was, unless it says otherwise.
-/

namespace Testbed.FileTree

/-- The greatest number of bytes in a name. -/
def nameLimit : Nat := 255

/-- The greatest number of bytes in a path. -/
def pathLimit : Nat := 4095

/-- The directory that a directory is in. -/
def parent (location : Location) : Location :=
  if location = [] || location = outside then outside else location.dropLast

/-- Go from a location to the one that a part leads to. -/
def step (t : FileTree) (location : Location) (part : String) : Except FileError Location :=
  match t.node? location with
  | none => .error .notFound
  | some (.file _) => .error .notADirectory
  | some .directory =>
    if part = "." then .ok location
    else if part = ".." then .ok (parent location)
    else if nameLimit < Text.Utf8.size part then .error .nameTooLong
    else .ok (location ++ [part])

/-- Where the parts of a path lead, from a location on. -/
def walk (t : FileTree) (location : Location) : List String → Except FileError Location
  | [] => .ok location
  | part :: rest =>
    match t.step location part with
    | .ok next => walk t next rest
    | .error e => .error e

/-- Where a path starts. -/
def origin (t : FileTree) (p : Path) : Location := if p.isAbsolute then outside else t.current

/-- Where a path leads.  Nothing need exist there. -/
def locate (t : FileTree) (p : Path) : Except FileError Location :=
  if p.isEmpty then .error .notFound
  else if pathLimit < Text.Utf8.size p then .error .nameTooLong
  else t.walk (t.origin p) (p.parts ++ if p.endsInSlash then ["."] else [])

/-- What a path leads to, and where it is. -/
def lookup (t : FileTree) (p : Path) : Except FileError (Location × Node) :=
  match t.locate p with
  | .error e => .error e
  | .ok location =>
    match t.node? location with
    | some node => .ok (location, node)
    | none => .error .notFound

/-- Whether a path leads to something. -/
def exists? (t : FileTree) (p : Path) : Bool := (t.lookup p).isOk

/-- Whether a path leads to a directory. -/
def isDirectory (t : FileTree) (p : Path) : Bool :=
  match t.lookup p with
  | .ok (_, .directory) => true
  | _ => false

/-- Whether a path leads to a file. -/
def isFile (t : FileTree) (p : Path) : Bool :=
  match t.lookup p with
  | .ok (_, .file _) => true
  | _ => false

/-- The contents of a file. -/
def readBytes (t : FileTree) (p : Path) : Except FileError Text.Bytes :=
  match t.lookup p with
  | .ok (_, .file contents) => .ok contents
  | .ok (_, .directory) => .error .isADirectory
  | .error e => .error e

/-- The contents of a file as text. -/
def readText (t : FileTree) (p : Path) : Except FileError String :=
  match t.readBytes p with
  | .error e => .error e
  | .ok contents =>
    match Text.Utf8.decode? contents with
    | some s => .ok s
    | none => .error .notText

/-- The last part of a path is a name of its own: not `.` and not `..`. -/
def namesEntry (p : Path) : Bool :=
  match p.parts.getLast? with
  | some part => part != "." && part != ".."
  | none => false

/-- Where a file has to be to be written under a path.  A path that can only mean a directory is
refused. -/
def locateForWriting (t : FileTree) (p : Path) : Except FileError Location :=
  if p.endsInSlash then
    match t.locate (Path.ofParts p.isAbsolute p.parts) with
    | .ok _ => .error .isADirectory
    | .error e => .error e
  else
    match t.locate p with
    | .error e => .error e
    | .ok location =>
      match t.node? location with
      | some .directory => .error .isADirectory
      | _ => .ok location

/-- Give a file new contents, creating it if it does not exist. -/
def write (t : FileTree) (p : Path) (contents : Text.Bytes) : Except FileError FileTree :=
  match t.locateForWriting p with
  | .ok location => .ok (t.put location (.file contents))
  | .error e => .error e

/-- Make a directory in a directory that exists. -/
def makeDirectory (t : FileTree) (p : Path) : Except FileError FileTree :=
  if pathLimit < Text.Utf8.size p then .error .nameTooLong
  else
    let plain := if p.endsInSlash then Path.ofParts p.isAbsolute p.parts else p
    match t.locate plain with
    | .error e => .error e
    | .ok location =>
      if !namesEntry p || (t.node? location).isSome then .error .alreadyExists
      else .ok (t.put location .directory)

/-- The end of making a directory: an existing one will do. -/
def orExisting (t : FileTree) (p : Path) : Except FileError FileTree → Except FileError FileTree
  | .ok t' => .ok t'
  | .error e => if t.isDirectory p then .ok t else .error e

/-- Make a directory, given by its parts from the last to the first, and those that it needs.  The
directories made before a failure stay; the flag tells of the failure. -/
def makeDirectoriesUp (t : FileTree) (absolute : Bool) :
    List String → FileTree × Option FileError
  | [] => (t, none)
  | part :: up =>
    let p := Path.ofParts absolute (part :: up).reverse
    match t.makeDirectory p with
    | .ok t' => (t', none)
    | .error .notFound =>
      match makeDirectoriesUp t absolute up with
      | (t', some e) => (t', some e)
      | (t', none) =>
        match t'.orExisting p (t'.makeDirectory p) with
        | .ok t'' => (t'', none)
        | .error e => (t', some e)
    | .error e => if t.isDirectory p then (t, none) else (t, some e)

/-- Make a directory and those that it needs.  Nothing is needed for the empty path. -/
def makeDirectories (t : FileTree) (p : Path) : FileTree × Option FileError :=
  if p.isEmpty then (t, none)
  else
    match t.makeDirectory p with
    | .ok t' => (t', none)
    | .error .notFound =>
      match makeDirectoriesUp t p.isAbsolute p.plainParts.reverse.tail with
      | (t', some e) => (t', some e)
      | (t', none) =>
        match t'.orExisting p (t'.makeDirectory p) with
        | .ok t'' => (t'', none)
        | .error e => (t', some e)
    | .error e => if t.isDirectory p then (t, none) else (t, some e)

/-- Remove a file. -/
def removeFile (t : FileTree) (p : Path) : Except FileError FileTree :=
  match t.lookup p with
  | .ok (location, .file _) => .ok (t.removeAt location)
  | .ok (_, .directory) => .error .isADirectory
  | .error e => .error e

/-- Remove a directory with all that is in it.  A path that ends in `.` or `..` names no entry to
remove: then the directory is emptied, and the removal fails. -/
def removeDirectory (t : FileTree) (p : Path) : FileTree × Option FileError :=
  match t.lookup p with
  | .error e => (t, some e)
  | .ok (_, .file _) => (t, some .notADirectory)
  | .ok (location, .directory) =>
    if namesEntry p then (t.removeAt location, none)
    else (t.clearAt location, some .invalidArgument)

/-- Remove whatever a path leads to; a path that leads nowhere is fine. -/
def remove (t : FileTree) (p : Path) : FileTree :=
  match t.lookup p with
  | .ok (location, _) => t.removeAt location
  | .error _ => t

/-- Give a file another path, in place of the file that is there. -/
def rename (t : FileTree) (source target : Path) : Except FileError FileTree :=
  match t.lookup source with
  | .error e => .error e
  | .ok (_, .directory) => .error .isADirectory
  | .ok (location, .file contents) =>
    match t.locateForWriting target with
    | .error e => .error e
    | .ok target => .ok ((t.removeAt location).put target (.file contents))

/-- Copy a file.  The target is emptied before the source is read on, so a file that is copied onto
itself ends up empty. -/
def copy (t : FileTree) (source target : Path) : Except FileError FileTree :=
  match t.lookup source with
  | .error e => .error e
  | .ok (_, .directory) => .error .notARegularFile
  | .ok (location, .file _) =>
    match t.locateForWriting target with
    | .error e => .error e
    | .ok target =>
      let emptied := t.put target (.file [])
      match emptied.node? location with
      | some (.file contents) => .ok (emptied.put target (.file contents))
      | _ => .ok emptied

/-- The paths, from a location on, of all files below it, and of the directories with nothing in
them, which end with a slash. -/
def listAt (t : FileTree) (location : Location) : List Path :=
  t.nodes.filterMap fun entry =>
    if entry.1 = location || !location.isPrefixOf entry.1 || outside.isPrefixOf entry.1 then none
    else
      let p := "/".intercalate (entry.1.drop location.length)
      match entry.2 with
      | .file _ => some p
      | .directory => if t.hasEntries entry.1 then none else some (p ++ "/")

/-- The paths of all files below the directory that a path leads to, in ascending order. -/
def list (t : FileTree) (p : Path) : List Path :=
  match t.lookup p with
  | .ok (location, .directory) => (t.listAt location).mergeSort (fun a b => a ≤ b)
  | _ => []

/-- Put a file with all the directories it needs. -/
def install (t : FileTree) (p : Path) (contents : Text.Bytes) : FileTree :=
  let above := Path.ofParts p.isAbsolute p.plainParts.dropLast
  let (t, _) := t.makeDirectories above
  match t.write p contents with
  | .ok t' => t'
  | .error _ => t

end Testbed.FileTree
