import Testbed.Shell.Pattern

/-!
# Fields

A word becomes fields once its substitutions are made: unquoted characters that were substituted are
split at separators, each field is a pattern that can stand for paths, and quotes are gone.
-/

namespace Testbed.Shell

/-- What a word consists of once its substitutions are made. -/
inductive Atom where
  /-- A character; one that was substituted can be a separator. -/
  | mark (mark : Pattern.Mark) (substituted : Bool)
  /-- Something quoted, so that there is a field, though it may be empty. -/
  | present
  /-- The end of a field, whatever stands around it. -/
  | boundary

namespace Atom

/-- The atoms of a text. -/
def ofText (quoted substituted : Bool) (s : String) : List Atom :=
  s.toList.map fun c => mark ⟨c, quoted⟩ substituted

/-- The atoms of a text that is a field of its own; a quoted one is a field though it is empty. -/
def ofField (quoted substituted : Bool) (s : String) : List Atom :=
  (if quoted then [present] else []) ++ ofText quoted substituted s

/-- The atoms of texts that are fields of their own. -/
def ofTexts (quoted substituted : Bool) (texts : List String) : List Atom :=
  [boundary].intercalate (texts.map (ofField quoted substituted))

/-- The characters of atoms, with their quotes. -/
def marks (atoms : List Atom) : List Pattern.Mark :=
  atoms.filterMap fun
    | mark m _ => some m
    | present => none
    | boundary => some ⟨' ', true⟩

/-- The text of atoms that are not split. -/
def text (atoms : List Atom) : String := Pattern.text (marks atoms)

/-- The separators that are blank are passed over in any number. -/
def isBlank (c : Char) : Bool := c = ' ' || c = '\t' || c = '\n'

/-- The fields of atoms; `current` is the field that is being read, last character first. -/
def fieldsFrom (separators : List Char) (current : Option (List Pattern.Mark)) :
    List Atom → List (List Pattern.Mark)
  | [] => (current.map List.reverse).toList
  | present :: rest => fieldsFrom separators (some (current.getD [])) rest
  | boundary :: rest => (current.map List.reverse).toList ++ fieldsFrom separators none rest
  | mark m substituted :: rest =>
    if substituted && !m.quoted && separators.contains m.char then
      if isBlank m.char then (current.map List.reverse).toList ++ fieldsFrom separators none rest
      else (current.getD []).reverse :: fieldsFrom separators none rest
    else fieldsFrom separators (some (m :: current.getD [])) rest

/-- The fields of atoms. -/
def fields (separators : List Char) (atoms : List Atom) : List (List Pattern.Mark) :=
  fieldsFrom separators none atoms

end Atom

namespace Pattern

/-- The shortest or longest number of characters, of those up to a bound, that passes a test. -/
def extent? (longest : Bool) (bound : Nat) (passes : Nat → Bool) : Option Nat :=
  let counts := List.range (bound + 1)
  (if longest then counts.reverse else counts).find? passes

/-- A text without its shortest or longest beginning that matches a pattern. -/
def trimStart (longest : Bool) (p : List Mark) (s : String) : String :=
  let cs := s.toList
  match extent? longest cs.length fun n => matches? p (cs.take n) with
  | some n => String.ofList (cs.drop n)
  | none => s

/-- A text without its shortest or longest end that matches a pattern. -/
def trimEnd (longest : Bool) (p : List Mark) (s : String) : String :=
  let cs := s.toList
  match extent? longest cs.length fun n => matches? p (cs.drop (cs.length - n)) with
  | some n => String.ofList (cs.take (cs.length - n))
  | none => s

end Pattern

end Testbed.Shell
