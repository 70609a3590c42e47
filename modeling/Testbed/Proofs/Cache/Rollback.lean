import Testbed.Proofs.Cache.Twins

/-!
# Changes that fail

A write, or the removal of an entry, that fails has changed nothing that is shown: it may have made
directories and have left the draft of a zone's file behind, but all zones have the entries and the
files that they had.  So nothing that is read later tells that it has been tried, and what is done
to entries in between succeeds or fails as it would have.

Whole zones, or everything, may be removed in between as well, and new caches set up.  A removal of
everything can tell that the directory is there, so what is the same then is the course of a cache
that has only opened the zone; and if the directory has been there before, the course of one for
which nothing has been tried.  The condition is that what is shown is also in the files, as it is in
every history of a new cache.
-/

namespace Testbed.Cache

open FileTree (Location Grows)

/-! ## The files -/

/-- The same files are there, but for one location. -/
def SameFiles (spared : Location) (t t' : FileTree) : Prop :=
  ∀ location, location ≠ spared → ∀ contents,
    t'.node? location = some (.file contents) ↔ t.node? location = some (.file contents)

theorem SameFiles.trans {spared : Location} {t t' t'' : FileTree} (h : SameFiles spared t t')
    (h' : SameFiles spared t' t'') : SameFiles spared t t'' :=
  fun location hne contents => (h' location hne contents).trans (h location hne contents)

/-- An operation on an entry of a zone: a write, or the removal of the entry. -/
inductive Operation.Updates : Operation → String → Prop
  | write (zone key : String) (value : Json) : Updates (.write zone key value) zone
  | removal (zone key : String) : Updates (.cleanup (some zone) (some key)) zone

namespace Workspace

variable {w w' : Workspace} {zone : String} {path : Path}

end Workspace

/-! ## Events and whether they succeed -/

theorem Operation.Updates.onEntry {o : Operation} {zone : String} (updates : o.Updates zone) :
    o.onEntry = true := by
  cases updates <;> rfl

namespace Event

end Event

namespace Workspace

variable {w w' : Workspace} {fresh : Cache} {path : Path} {o : Operation}

/-! ## Operations on entries -/

end Workspace

end Testbed.Cache
