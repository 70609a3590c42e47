import Testbed.Json.Decode
import Testbed.Text.Utf8

/-!
# Zones

A zone holds entries: values under their keys, each kept as the text of a JSON document.  A zone may
hold lists of such texts besides; a list is never read, but an entry of the same key takes its
place, and both go when the key is removed.  The text of a zone is one document with the entries and
the lists.
-/

namespace Testbed.Cache

/-- The entries of a zone, and its lists. -/
structure Zone where
  entries : Table String := ∅
  lists : Table (List String) := ∅
  deriving DecidableEq, Inhabited

namespace Zone

/-- The value of an entry, unless there is none or it has not the form of the type. -/
def read {α : Type} (z : Zone) (decode : Json.Decoder α) (key : String) : Option α :=
  (z.entries.get? key).bind (Json.decodeText? decode)

/-- A zone with a value under a key. -/
def write (z : Zone) (key : String) (value : Json) : Zone where
  entries := z.entries.insert key value.compact
  lists := z.lists.erase key

/-- Whether a key has an entry or a list. -/
def has (z : Zone) (key : String) : Bool :=
  z.entries.contains key || z.lists.contains key

/-- A zone without a key. -/
def erase (z : Zone) (key : String) : Zone where
  entries := z.entries.erase key
  lists := z.lists.erase key

/-- The document of a zone. -/
def document (z : Zone) : Json :=
  .array [
    .object (z.entries.entries.map fun entry => (entry.1, .string entry.2)),
    .object (z.lists.entries.map fun entry => (entry.1, Json.ofStrings entry.2))]

/-- The text of a zone. -/
def text (z : Zone) : String := z.document.compact

/-- The zone of a document. -/
def decode : Json.Decoder Zone := fun j =>
  (Json.Decoder.pair (Json.Decoder.table Json.Decoder.string)
    (Json.Decoder.table (Json.Decoder.list Json.Decoder.string)) j).map fun (entries, lists) =>
      { entries, lists }

/-- Read a zone back from the bytes of a file. -/
def ofBytes? (contents : Text.Bytes) : Option Zone :=
  (Text.Utf8.decode? contents).bind (Json.decodeText? decode)

/-- The bytes of a zone's file. -/
def toBytes (z : Zone) : Text.Bytes := Text.Utf8.encode z.text

end Zone

end Testbed.Cache
