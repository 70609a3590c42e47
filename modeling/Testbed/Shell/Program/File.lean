import Testbed.Shell.Program.Basic

/-!
# Programs on files

The programs that make, remove, list, copy and move files and directories, and those that take a
path apart.
-/

namespace Testbed.Shell.Program

open Print (bytes)

/-- `touch` -/
def touch : Program := fun words input files =>
  let (_, names) := options words
  if names.isEmpty then missingOperand "touch" "file operand" files
  else
    forEach (fun name files =>
      if files.exists? name then { files }
      else
        match files.write name [] with
        | .ok files => { files }
        | .error e =>
          { code := 1
            errors := complaint "touch" ("cannot touch '" ++ name ++ "': " ++ e.reason)
            files })
      names input files

/-- `rm` -/
def rm : Program := fun words input files =>
  let (letters, names) := options words
  let forced := letters.contains 'f'
  let recursive := letters.contains 'r' || letters.contains 'R'
  if names.isEmpty && !forced then missingOperand "rm" "operand" files
  else
    forEach (fun name files =>
      let fail (reason : String) : Outcome :=
        { code := 1
          errors := complaint "rm" ("cannot remove '" ++ name ++ "': " ++ reason)
          files }
      match files.lookup name with
      | .ok (location, .file _) => { files := files.removeAt location }
      | .ok (location, .directory) =>
        if recursive then { files := files.removeAt location }
        else fail FileError.isADirectory.reason
      | .error .notFound => if forced then { files } else fail FileError.notFound.reason
      | .error e => fail e.reason)
      names input files

/-- `mkdir` -/
def mkdir : Program := fun words input files =>
  let (letters, names) := options words
  if names.isEmpty then missingOperand "mkdir" "operand" files
  else
    forEach (fun name files =>
      let fail (files : FileTree) (e : FileError) : Outcome :=
        { code := 1
          errors := complaint "mkdir" ("cannot create directory '" ++ name ++ "': " ++ e.reason)
          files }
      if letters.contains 'p' then
        match files.makeDirectories name with
        | (files, none) => { files }
        | (files, some e) => fail files e
      else
        match files.makeDirectory name with
        | .ok files => { files }
        | .error e => fail files e)
      names input files

/-- `rmdir` -/
def rmdir : Program := fun words input files =>
  let (_, names) := options words
  if names.isEmpty then missingOperand "rmdir" "operand" files
  else
    forEach (fun name files =>
      let fail (e : FileError) : Outcome :=
        { code := 1
          errors := complaint "rmdir" ("failed to remove '" ++ name ++ "': " ++ e.reason)
          files }
      match files.lookup name with
      | .ok (location, .directory) =>
        if files.hasEntries location then fail .directoryNotEmpty
        else { files := files.removeAt location }
      | .ok _ => fail .notADirectory
      | .error e => fail e)
      names input files

/-- The names in a directory that are shown. -/
def shownNames (files : FileTree) (location : FileTree.Location) (hiddenToo : Bool) : List String :=
  let found := files.nodes.filterMap fun entry =>
    if entry.1.length = location.length + 1 && location.isPrefixOf entry.1
        && !FileTree.outside.isPrefixOf entry.1 then
      entry.1.getLast?
    else none
  (found.filter fun name => hiddenToo || name.toList.head? != some '.').mergeSort
    (fun a b => a ≤ b)

/-- `ls`: files come before directories, which have titles if they are not the only ones. -/
def ls : Program := fun words _ files =>
  let (letters, names) := options words
  let hiddenToo := letters.contains 'a' || letters.contains 'A'
  let names := if names.isEmpty then ["."] else names
  let faults := names.filterMap fun name =>
    match files.lookup name with
    | .ok _ => none
    | .error e => some ("cannot access '" ++ name ++ "': " ++ e.reason)
  let plain := (names.filter fun name => files.isFile name).map (· ++ "\n")
  let shown (name : String) : Option String :=
    match files.lookup name with
    | .ok (location, .directory) =>
      let inside := (if letters.contains 'a' then [".", ".."] else [])
        ++ shownNames files location hiddenToo
      let title := if names.length = 1 then "" else name ++ ":\n"
      some (title ++ "".intercalate (inside.map (· ++ "\n")))
    | _ => none
  let sections := (if plain.isEmpty then [] else ["".intercalate plain]) ++ names.filterMap shown
  { code := if faults.isEmpty then 0 else 2
    output := bytes ("\n".intercalate sections)
    errors := faults.flatMap (complaint "ls")
    files }

/-- The path under which something is put into a directory, if the target is one. -/
def targetPath (files : FileTree) (source target : Path) : Path :=
  match source.fileName? with
  | some name => if files.isDirectory target then target.join name else target
  | none => target

/-- Why a file is not copied or moved. -/
inductive TransferFault where
  | noSource (e : FileError)
  | directory
  | sameFile
  | noTarget (e : FileError)

/-- The wording of a fault of `cp`, or of `mv`. -/
def TransferFault.message (moving : Bool) (source target : Path) : TransferFault → String
  | noSource e => "cannot stat '" ++ source ++ "': " ++ e.reason
  | directory => "-r not specified; omitting directory '" ++ source ++ "'"
  | sameFile => "'" ++ source ++ "' and '" ++ target ++ "' are the same file"
  | noTarget e =>
    if moving then "cannot move '" ++ source ++ "' to '" ++ target ++ "': " ++ e.reason
    else "cannot create regular file '" ++ target ++ "': " ++ e.reason

/-- Copy or move a file to a path that is no directory. -/
def transferFile (moving : Bool) (files : FileTree) (source target : Path) :
    Except TransferFault FileTree :=
  match files.lookup source with
  | .error e => .error (.noSource e)
  | .ok (_, .directory) => if moving then .error (.noSource .isADirectory) else .error .directory
  | .ok (location, .file _) =>
    if (files.lookup target).toOption.map (·.1) = some location then .error .sameFile
    else
      match (if moving then files.rename source target else files.copy source target) with
      | .ok files => .ok files
      | .error e => .error (.noTarget e)

/-- `cp` and `mv` -/
def transfer (program : String) (moving : Bool) : Program := fun words input files =>
  let (_, names) := options words
  match names.getLast?, names.dropLast with
  | some target, source :: sources =>
    forEach (fun source files =>
      let target := targetPath files source target
      match transferFile moving files source target with
      | .ok files => { files }
      | .error e =>
        { code := 1, errors := complaint program (e.message moving source target), files })
      (source :: sources) input files
  | some only, [] =>
    { code := 1
      errors := complaint program ("missing destination file operand after '" ++ only ++ "'")
        ++ bytes ("Try '" ++ program ++ " --help' for more information.\n")
      files }
  | none, _ => missingOperand program "file operand" files

/-- `basename` -/
def basename : Program := fun words input files =>
  match words with
  | [] => missingOperand "basename" "operand" files
  | p :: more =>
    let name := ((Path.parts p).getLast?).getD (if p.isEmpty then "" else "/")
    let shown := match more with
      | suffix :: _ =>
        if suffix.toList.isSuffixOf name.toList && suffix != name then
          String.ofList (name.toList.take (name.length - suffix.length))
        else name
      | [] => name
    { output := bytes (shown ++ "\n"), files, left := input }

/-- `dirname` -/
def dirname : Program := fun words input files =>
  match words with
  | [] => missingOperand "dirname" "operand" files
  | p :: _ =>
    let above := Path.ofParts (Path.isAbsolute p) (Path.parts p).dropLast
    { output := bytes ((if above.isEmpty then "." else above) ++ "\n"), files, left := input }

end Testbed.Shell.Program
