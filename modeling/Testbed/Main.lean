import Testbed.CommandLine.Program

/-!
# The program as it is called

The outer layer of the program: it reads the files that a command line is about, lets the library do
the work, writes the files that came of it, and prints.
-/

namespace Testbed.CommandLine

/-- The path of a location. -/
def pathAt (location : FileTree.Location) : Path :=
  match location with
  | "/" :: rest => Path.ofParts true rest
  | parts => Path.ofParts false parts

/-- Take the files that exist under some paths into a tree. -/
def takeIn (t : FileTree) (paths : List Path) : IO FileTree := do
  let mut t := t
  for p in paths do
    try
      let contents ← IO.FS.readBinFile p
      t := t.install p contents.toList
    catch _ => pure ()
  return t

/-- The tree of the files that a command line is about. -/
def surroundings (arguments : List String) : IO FileTree := do
  match Request.ofArguments arguments with
  | .error _ => return FileTree.empty
  | .ok request =>
    let t ← takeIn FileTree.empty [request.settingsPath]
    let settings := match Settings.load t request.settingsPath with
      | .settings s => s
      | _ => {}
    let zones := request.zone?.toList.map (Cache.zonePath settings.cache.directory)
    takeIn t (request.inventoryPaths settings ++ zones)

/-- Write what changed from one tree to another. -/
def writeOut (before after : FileTree) : IO Unit := do
  for (location, node) in after.nodes.reverse do
    if before.node? location != some node then
      match node with
      | .directory => IO.FS.createDirAll (pathAt location)
      | .file contents =>
        if 1 < location.length then IO.FS.createDirAll (pathAt location.dropLast)
        IO.FS.writeBinFile (pathAt location) ⟨contents.toArray⟩
  for (location, node) in before.nodes do
    if after.node? location = none && node != .directory then IO.FS.removeFile (pathAt location)

end Testbed.CommandLine

open Testbed.CommandLine in
/-- Call the program with the arguments of its process. -/
def main (arguments : List String) : IO UInt32 := do
  let files ← surroundings arguments
  let outcome := run arguments none files
  writeOut files outcome.files
  IO.print outcome.output.shown
  IO.eprint outcome.errors.shown
  return outcome.exitCode.toUInt32
