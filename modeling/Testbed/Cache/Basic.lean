import Testbed.Cache.FileName
import Testbed.Cache.Zone
import Testbed.FileTree.Access

/-!
# The cache

A cache keeps zones in memory.  A cache with a location also keeps each zone in a file there: it
reads the file when the zone is first used, and writes it after every change and once more when it
lets go of the zone.  A file that cannot be read counts as an empty zone.  A change that cannot be
written is not made.

A cache that is not enabled answers like any other; only look-ups ask whether it is.
-/

namespace Testbed

/-- Zones in memory, and the directory of their files. -/
structure Cache where
  enabled : Bool := true
  location : Option Path := none
  zones : Table Cache.Zone := ∅

namespace Cache

/-- How a cache is set up. -/
structure Setup where
  enabled : Bool := true
  persistent : Bool := true
  directory : String := "./_cache"
  deriving DecidableEq

/-- A new cache. -/
def ofSetup (s : Setup) : Cache where
  enabled := s.enabled
  location := if s.persistent then some s.directory else none

/-- A new cache without files. -/
def inMemory : Cache := {}

/-- Why an operation of a cache fails. -/
inductive Error where
  /-- A look-up was called without the parameter that gives its zone. -/
  | zoneNotFound (lookup parameter : String)
  | directory (path : Path) (cause : FileError)
  | store (zone : String) (cause : FileError)
  deriving DecidableEq

/-- The wording of an error. -/
def Error.message : Error → String
  | zoneNotFound lookup parameter =>
    "failed to get parameter '" ++ parameter ++ "' from function " ++ lookup ++ " as zone"
  | directory _ _ => "failed to access cache directory"
  | store _ _ => "failed to update cache store"

/-- A cache as it is shown to a programmer. -/
def shown (c : Cache) : String :=
  let location := match c.location with
    | none => "None"
    | some path => "Some(" ++ Text.quotedStrictly path ++ ")"
  "FactsCache \x7b enabled: " ++ (if c.enabled then "true" else "false") ++ ", location: "
    ++ location ++ " \x7d"

/-- The file of a zone in a directory. -/
def zonePath (location : Path) (zone : String) : Path := location.join (FileName.ofZone zone)

/-- What is added to the path of a file for its draft: a stamp of ten digits. -/
def draftStamp : String := ".temp.1000000000"

/-- Write the file of a zone.  A draft is written first and then takes the place of the file, so a
failure leaves the file as it was, but may leave the draft behind. -/
def dump (files : FileTree) (path : Path) (z : Zone) : FileTree × Except FileError Unit :=
  match files.write (path ++ draftStamp) z.toBytes with
  | .error e => (files, .error e)
  | .ok drafted =>
    match drafted.rename (path ++ draftStamp) path with
    | .error e => (drafted, .error e)
    | .ok files => (files, .ok ())

/-- A zone as its file says. -/
def loadZone (files : FileTree) (path : Path) : Zone :=
  match files.readBytes path with
  | .error _ => {}
  | .ok contents => (Zone.ofBytes? contents).getD {}

/-- A cache together with the files it works on. -/
structure Workspace where
  cache : Cache
  files : FileTree

namespace Workspace

/-- The workspace with a zone in memory. -/
def hold (w : Workspace) (zone : String) (z : Zone) : Workspace :=
  { w with cache := { w.cache with zones := w.cache.zones.insert zone z } }

/-- The zone of a name.  It is brought into memory when it is first used, and the directory of a
persistent cache is made then. -/
def openZone (w : Workspace) (zone : String) : Except Error Zone × Workspace :=
  match w.cache.zones.get? zone with
  | some z => (.ok z, w)
  | none =>
    match w.cache.location with
    | none => (.ok {}, w.hold zone {})
    | some location =>
      match w.files.makeDirectories location with
      | (files, some cause) => (.error (.directory location cause), { w with files })
      | (files, none) =>
        let z := loadZone files (zonePath location zone)
        (.ok z, { w with files }.hold zone z)

/-- Put a zone in place of the one in memory and write its file. -/
def update (w : Workspace) (zone : String) (z : Zone) : Except Error Unit × Workspace :=
  match w.cache.location with
  | none => (.ok (), w.hold zone z)
  | some location =>
    match dump w.files (zonePath location zone) z with
    | (files, .ok ()) => (.ok (), { w with files }.hold zone z)
    | (files, .error cause) => (.error (.store zone cause), { w with files })

/-- Read an entry.  Where there is none of the type, or the zone cannot be opened, there is no
value. -/
def read {α : Type} (w : Workspace) (decode : Json.Decoder α) (zone key : String) :
    Option α × Workspace :=
  match w.openZone zone with
  | (.ok z, w) => (z.read decode key, w)
  | (.error _, w) => (none, w)

/-- Write an entry, in place of the one that has the key. -/
def write (w : Workspace) (zone key : String) (value : Json) : Except Error Unit × Workspace :=
  match w.openZone zone with
  | (.error e, w) => (.error e, w)
  | (.ok z, w) => w.update zone (z.write key value)

/-- Remove an entry.  The file is written only if there was one. -/
def removeEntry (w : Workspace) (zone key : String) : Except Error Unit × Workspace :=
  match w.openZone zone with
  | (.error e, w) => (.error e, w)
  | (.ok z, w) => if z.has key then w.update zone (z.erase key) else (.ok (), w)

/-- Write the file of a zone that the cache lets go of.  A failure is passed over. -/
def flush (files : FileTree) (location : Option Path) (zone : String) (z : Zone) : FileTree :=
  match location with
  | none => files
  | some location => (dump files (zonePath location zone) z).1

/-- Remove a zone and its file. -/
def removeZone (w : Workspace) (zone : String) : Except Error Unit × Workspace :=
  let flushed := match w.cache.zones.get? zone with
    | none => w.files
    | some z => flush w.files w.cache.location zone z
  let cache := { w.cache with zones := w.cache.zones.erase zone }
  match w.cache.location with
  | none => (.ok (), ⟨cache, flushed⟩)
  | some location =>
    let path := zonePath location zone
    if flushed.exists? path then
      match flushed.removeFile path with
      | .ok files => (.ok (), ⟨cache, files⟩)
      | .error cause => (.error (.directory path cause), ⟨cache, flushed⟩)
    else (.ok (), ⟨cache, flushed⟩)

/-- The files after the cache has let go of all its zones. -/
def flushAll (w : Workspace) : FileTree :=
  w.cache.zones.entries.foldl
    (fun files entry => flush files w.cache.location entry.1 entry.2) w.files

/-- Remove everything, and the directory with it. -/
def removeAll (w : Workspace) : Except Error Unit × Workspace :=
  let flushed := w.flushAll
  let cache := { w.cache with zones := ∅ }
  match w.cache.location with
  | none => (.ok (), ⟨cache, flushed⟩)
  | some location =>
    if flushed.exists? location then
      match flushed.removeDirectory location with
      | (files, none) => (.ok (), ⟨cache, files⟩)
      | (files, some cause) => (.error (.directory location cause), ⟨cache, files⟩)
    else (.ok (), ⟨cache, flushed⟩)

/-- Remove an entry, a zone, or without a zone everything. -/
def cleanup (w : Workspace) : (zone key : Option String) → Except Error Unit × Workspace
  | some zone, some key => w.removeEntry zone key
  | some zone, none => w.removeZone zone
  | none, _ => w.removeAll

/-- Let go of the cache and set up a new one in its place. -/
def reopen (w : Workspace) (fresh : Cache) : Workspace := ⟨fresh, w.flushAll⟩

end Workspace

end Cache

end Testbed
