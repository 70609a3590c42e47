/-!
# Names of zone files

Each zone has a file of its own in the directory of the cache.  The characters that could lead out
of the directory are escaped, and the escape mark with them, so a file name tells which zone it
belongs to.
-/

namespace Testbed.Cache.FileName

/-- The escape of a character that does not stand for itself. -/
def escape? (c : Char) : Option String :=
  if c = '%' then some "%25"
  else if c = '/' then some "%2F"
  else if c = '\\' then some "%5C"
  else if c = '\x00' then some "%00"
  else none

/-- A character as it stands in a file name. -/
def encodeChar (c : Char) : List Char :=
  match escape? c with
  | some escape => escape.toList
  | none => [c]

/-- What ends the name of every zone file. -/
def extension : List Char := ".json".toList

/-- The file name of a zone. -/
def ofZone (zone : String) : String :=
  String.ofList (zone.toList.flatMap encodeChar ++ extension)

/-- The characters that are written as they are given by a name without its extension. -/
def decodeChars : List Char → List Char
  | '%' :: '2' :: '5' :: rest => '%' :: decodeChars rest
  | '%' :: '2' :: 'F' :: rest => '/' :: decodeChars rest
  | '%' :: '5' :: 'C' :: rest => '\\' :: decodeChars rest
  | '%' :: '0' :: '0' :: rest => '\x00' :: decodeChars rest
  | c :: rest => c :: decodeChars rest
  | [] => []

/-- The zone that a file name belongs to. -/
def toZone (name : String) : String :=
  String.ofList (decodeChars (name.toList.take (name.toList.length - extension.length)))

end Testbed.Cache.FileName
