import Testbed.Binary64.Shortest
import Testbed.Json.Basic
import Testbed.Text.Quoted

/-!
# Writing JSON

The compact form has no blanks.  The spread form gives each item and member a line of its own,
indented by two blanks for each level, and leaves empty arrays and objects closed up.  Texts escape
the quote, the backslash and the control characters.
-/

namespace Testbed.Json

/-- A character as it stands in a text. -/
def escapedChar (c : Char) : String :=
  if c = '"' then "\\\""
  else if c = '\\' then "\\\\"
  else if c = '\x08' then "\\b"
  else if c = '\x0c' then "\\f"
  else if c = '\n' then "\\n"
  else if c = '\r' then "\\r"
  else if c = '\t' then "\\t"
  else if c.toNat < 0x10 then "\\u000" ++ Text.hexDigits c.toNat
  else if c.toNat < 0x20 then "\\u00" ++ Text.hexDigits c.toNat
  else c.toString

/-- A text between quotes. -/
def quotedText (s : String) : String :=
  "\"" ++ String.join (s.toList.map escapedChar) ++ "\""

/-- The text of a number. -/
def Number.text : Number → String
  | int n => toString n
  | float x => x.text

mutual

/-- The compact form of a document. -/
def compact : Json → String
  | .null => "null"
  | .bool true => "true"
  | .bool false => "false"
  | .number n => n.text
  | .string s => quotedText s
  | .array items => "[" ++ compactItems items ++ "]"
  | .object members => "\x7b" ++ compactMembers members ++ "\x7d"

/-- The items of an array, with commas between them. -/
def compactItems : List Json → String
  | [] => ""
  | [item] => compact item
  | item :: rest => compact item ++ "," ++ compactItems rest

/-- The members of an object, with commas between them. -/
def compactMembers : List (String × Json) → String
  | [] => ""
  | [(name, value)] => quotedText name ++ ":" ++ compact value
  | (name, value) :: rest => quotedText name ++ ":" ++ compact value ++ "," ++ compactMembers rest

end

/-- A line break and the indentation of a level. -/
def lineBreak (level : Nat) : String :=
  "\n" ++ String.ofList (List.replicate (2 * level) ' ')

mutual

/-- The spread form of a document at a level. -/
def spreadAt (level : Nat) : Json → String
  | .array [] => "[]"
  | .array items => "[" ++ spreadItems (level + 1) items ++ lineBreak level ++ "]"
  | .object [] => "\x7b\x7d"
  | .object members => "\x7b" ++ spreadMembers (level + 1) members ++ lineBreak level ++ "\x7d"
  | .null => "null"
  | .bool true => "true"
  | .bool false => "false"
  | .number n => n.text
  | .string s => quotedText s

/-- The items of an array, each on a line of its own. -/
def spreadItems (level : Nat) : List Json → String
  | [] => ""
  | [item] => lineBreak level ++ spreadAt level item
  | item :: rest => lineBreak level ++ spreadAt level item ++ "," ++ spreadItems level rest

/-- The members of an object, each on a line of its own. -/
def spreadMembers (level : Nat) : List (String × Json) → String
  | [] => ""
  | [(name, value)] => lineBreak level ++ quotedText name ++ ": " ++ spreadAt level value
  | (name, value) :: rest =>
    lineBreak level ++ quotedText name ++ ": " ++ spreadAt level value ++ ","
      ++ spreadMembers level rest

end

/-- The spread form of a document. -/
def spread (j : Json) : String := spreadAt 0 j

end Testbed.Json
