import Testbed.FileTree.Access

/-!
# Patterns

A pattern stands for texts: a star for any characters, a question mark for one, brackets for one of
some.  A quoted character stands for itself.  A word that is a pattern is replaced by the paths that
it stands for, if there are any.
-/

namespace Testbed.Shell.Pattern

/-- A character of a pattern, and whether it is quoted. -/
structure Mark where
  char : Char
  quoted : Bool
  deriving DecidableEq

/-- Whether a mark is a character that is not quoted. -/
def Mark.isBare (m : Mark) (c : Char) : Bool := m.char = c && !m.quoted

/-- Whether a character is one of those between brackets: single ones, and ranges. -/
def isListed (c : Char) : List Mark → Bool
  | a :: b :: d :: rest =>
    if b.isBare '-' then (a.char ≤ c && c ≤ d.char) || isListed c rest
    else a.char = c || isListed c (b :: d :: rest)
  | a :: rest => a.char = c || isListed c rest
  | [] => false

/-- The marks between brackets, after the opening one, whether they are excluded, and the marks
after the closing one. -/
def bracket? (p : List Mark) : Option (Bool × List Mark × List Mark) :=
  let (excluded, p) := match p with
    | m :: rest => if m.isBare '!' || m.isBare '^' then (true, rest) else (false, p)
    | [] => (false, [])
  let first := p.take 1
  let rest := p.drop 1
  match rest.dropWhile fun m => !m.isBare ']' with
  | _ :: after => some (excluded, first ++ rest.takeWhile (fun m => !m.isBare ']'), after)
  | [] => none

/-- Whether a text matches a pattern; `fuel` bounds the steps. -/
def matchesIn : (fuel : Nat) → List Mark → List Char → Bool
  | 0, _, _ => false
  | _ + 1, [], cs => cs.isEmpty
  | fuel + 1, m :: p, cs =>
    if m.isBare '*' then
      matchesIn fuel p cs ||
        match cs with
        | [] => false
        | _ :: rest => matchesIn fuel (m :: p) rest
    else
      match cs with
      | [] => false
      | c :: rest =>
        if m.isBare '?' then matchesIn fuel p rest
        else if m.isBare '[' then
          match bracket? p with
          | some (excluded, listed, after) =>
            isListed c listed != excluded && matchesIn fuel after rest
          | none => c = '[' && matchesIn fuel p rest
        else c = m.char && matchesIn fuel p rest

/-- Whether a text matches a pattern. -/
def matches? (p : List Mark) (cs : List Char) : Bool :=
  matchesIn (p.length + cs.length + 1) p cs

/-- The text of a pattern. -/
def text (p : List Mark) : String := String.ofList (p.map (·.char))

/-- Whether a pattern can stand for another text than its own. -/
def isActive (p : List Mark) : Bool :=
  p.any fun m => m.isBare '*' || m.isBare '?' || m.isBare '['

/-- The parts of a pattern between its slashes. -/
def split (p : List Mark) : List (List Mark) := p.splitOnP (·.char = '/')

/-- The names in a directory, in ascending order. -/
def namesIn (files : FileTree) (p : Path) : List String :=
  match files.lookup (if p.isEmpty then "." else p) with
  | .ok (location, .directory) =>
    let found := files.nodes.filterMap fun entry =>
      if entry.1.length = location.length + 1 && location.isPrefixOf entry.1
          && !FileTree.outside.isPrefixOf entry.1 then
        entry.1.getLast?
      else none
    found.mergeSort (fun a b => a ≤ b)
  | _ => []

/-- Whether a name may stand for a pattern: those with a point in front must be asked for. -/
def admits (p : List Mark) (name : String) : Bool :=
  (name.toList.head? != some '.' || (p.head?.map (·.char)) == some '.')
    && matches? p name.toList

/-- The paths that the parts of a pattern stand for, below a path. -/
def pathsBelow (files : FileTree) (above : Path) : List (List Mark) → List Path
  | [] => [above]
  | [part] =>
    if isActive part then
      (namesIn files above).filter (admits part) |>.map fun name => above ++ name
    else if part.isEmpty || files.exists? (above ++ text part) then [above ++ text part]
    else []
  | part :: rest =>
    let here := if isActive part then (namesIn files above).filter (admits part) else [text part]
    here.flatMap fun name => pathsBelow files (above ++ name ++ "/") rest

/-- The paths that a word stands for, or the word itself where it stands for none. -/
def paths (files : FileTree) (p : List Mark) : List String :=
  if isActive p then
    match pathsBelow files "" (split p) with
    | [] => [text p]
    | found => found
  else [text p]

end Testbed.Shell.Pattern
