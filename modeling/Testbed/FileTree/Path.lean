import Testbed.Text.Blank

/-!
# Paths

A path is kept as the text it was given as.  The functions here take it apart at its slashes without
asking what exists.
-/

namespace Testbed

/-- A path, as it was given. -/
abbrev Path := String

namespace Path

/-- Whether a path starts at the root of all files. -/
def isAbsolute (p : Path) : Bool := p.toList.head? == some '/'

/-- Whether a path ends with a slash, so that it can only mean a directory. -/
def endsInSlash (p : Path) : Bool := p.toList.getLast? == some '/'

/-- The parts between the slashes, those that are empty left out. -/
def parts (p : Path) : List String :=
  (Text.splitAtChar '/' p).filter fun part => part != ""

/-- The parts of a path in its plain form: a `.` counts at the front of a relative path only. -/
def plainParts (p : Path) : List String :=
  match p.parts, p.isAbsolute with
  | "." :: rest, false => "." :: rest.filter (· != ".")
  | ps, _ => ps.filter (· != ".")

/-- The path of some parts. -/
def ofParts (absolute : Bool) (ps : List String) : Path :=
  (if absolute then "/" else "") ++ "/".intercalate ps

/-- The name of the file or directory that a path ends with, if it ends with a name. -/
def fileName? (p : Path) : Option String :=
  match p.plainParts.getLast? with
  | some part => if part = "." || part = ".." then none else some part
  | none => none

/-- The path of a name in the directory that a path means. -/
def join (p : Path) (name : String) : Path :=
  if p.isEmpty || p.endsInSlash then p ++ name else p ++ "/" ++ name

end Path

end Testbed
