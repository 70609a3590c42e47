import Testbed.Json.Numeral

/-!
# Reading JSON

A reader takes something off the front of the text and leaves the rest.  Nesting is limited: `value`
takes the number of levels that may still be opened, and recurses on it.  What a document holds
under a name nobody asks for is skipped: `skipped` goes by the same grammar, but neither limits the
nesting nor asks what the escapes and the numbers in it denote.
-/

namespace Testbed.Json

/-- A reader takes a value off the front of a text, or fails. -/
abbrev Reader (α : Type u) := List Char → Option (α × List Char)

namespace Reader

/-- The blanks between the parts of a document. -/
def isBlank (c : Char) : Bool := c = ' ' || c = '\t' || c = '\n' || c = '\r'

/-- The text from its first character that is not blank. -/
def skipBlanks (cs : List Char) : List Char := cs.dropWhile isBlank

/-- How texts and numbers are read. -/
structure Leaves where
  /-- The character of an escape, after the backslash; the rest is shorter. -/
  escape : (cs : List Char) → Option (Char × { rest : List Char // rest.length < cs.length })
  number : Numeral → Option Number

/-- The value of a digit in base sixteen. -/
def hexDigit? (c : Char) : Option Nat :=
  if '0' ≤ c && c ≤ '9' then some (c.toNat - '0'.toNat)
  else if 'a' ≤ c && c ≤ 'f' then some (c.toNat - 'a'.toNat + 10)
  else if 'A' ≤ c && c ≤ 'F' then some (c.toNat - 'A'.toNat + 10)
  else none

/-- The value of four digits in base sixteen. -/
def hex4? (a b c d : Char) : Option Nat := do
  let a ← hexDigit? a
  let b ← hexDigit? b
  let c ← hexDigit? c
  let d ← hexDigit? d
  return ((a * 16 + b) * 16 + c) * 16 + d

/-- The characters with an escape of one letter. -/
def simpleEscape? (c : Char) : Option Char :=
  if c = '"' then some '"'
  else if c = '\\' then some '\\'
  else if c = '/' then some '/'
  else if c = 'b' then some '\x08'
  else if c = 'f' then some '\x0c'
  else if c = 'n' then some '\n'
  else if c = 'r' then some '\r'
  else if c = 't' then some '\t'
  else none

/-- Whether a number is the first half of a surrogate pair. -/
def isHighSurrogate (n : Nat) : Bool := 0xD800 ≤ n && n ≤ 0xDBFF

/-- Whether a number is the second half of a surrogate pair. -/
def isLowSurrogate (n : Nat) : Bool := 0xDC00 ≤ n && n ≤ 0xDFFF

/-- The character of an escape.  Surrogates denote a character in pairs only. -/
def escape? : (cs : List Char) → Option (Char × { rest : List Char // rest.length < cs.length })
  | 'u' :: a :: b :: c :: d :: rest =>
    match hex4? a b c d with
    | none => none
    | some n =>
      if isLowSurrogate n then none
      else if isHighSurrogate n then
        match rest with
        | '\\' :: 'u' :: e :: f :: g :: h :: rest' =>
          match hex4? e f g h with
          | none => none
          | some m =>
            if isLowSurrogate m then
              some (Char.ofNat (0x10000 + (n - 0xD800) * 1024 + (m - 0xDC00)),
                ⟨rest', by simp; omega⟩)
            else none
        | _ => none
      else some (Char.ofNat n, ⟨rest, by simp; omega⟩)
  | c :: rest => (simpleEscape? c).map fun c => (c, ⟨rest, by simp⟩)
  | [] => none

/-- Pass over an escape, whatever it denotes. -/
def anyEscape? : (cs : List Char) → Option (Char × { rest : List Char // rest.length < cs.length })
  | 'u' :: a :: b :: c :: d :: rest =>
    (hex4? a b c d).map fun _ => ('u', ⟨rest, by simp; omega⟩)
  | c :: rest => (simpleEscape? c).map fun c => (c, ⟨rest, by simp⟩)
  | [] => none

/-- The leaves of a document that is read. -/
def Leaves.exact : Leaves := ⟨escape?, Numeral.number?⟩

/-- The leaves of a document that is skipped. -/
def Leaves.any : Leaves := ⟨anyEscape?, fun _ => some (.int 0)⟩

/-- The characters of a text up to its closing quote.  Control characters must be escaped. -/
def textBody (leaves : Leaves) (cs : List Char) : Option (List Char × List Char) :=
  match cs with
  | [] => none
  | c :: rest =>
    if c = '"' then some ([], rest)
    else if c = '\\' then
      match leaves.escape rest with
      | none => none
      | some (d, rest') =>
        have := rest'.property
        (textBody leaves rest'.val).map fun r => (d :: r.1, r.2)
    else if c.toNat < 0x20 then none
    else (textBody leaves rest).map fun r => (c :: r.1, r.2)
termination_by cs.length
decreasing_by all_goals (simp; try omega)

/-- A text between quotes. -/
def text (leaves : Leaves) : Reader String
  | '"' :: rest => (textBody leaves rest).map fun r => (String.ofList r.1, r.2)
  | _ => none

/-- Digits, at least one. -/
def digits : Reader (List Char) := fun cs =>
  let found := cs.takeWhile Char.isDigit
  if found.isEmpty then none else some (found, cs.dropWhile Char.isDigit)

/-- The digits before the point: a zero stands alone. -/
def wholeDigits : Reader (List Char)
  | '0' :: rest =>
    match rest with
    | c :: _ => if c.isDigit then none else some (['0'], rest)
    | [] => some (['0'], [])
  | cs => digits cs

/-- The digits after a point, if there is one. -/
def fraction : Reader (Option (List Char))
  | '.' :: rest => (digits rest).map fun r => (some r.1, r.2)
  | cs => some (none, cs)

/-- The sign and the digits of an exponent, if there is one. -/
def exponent : Reader (Option (Bool × List Char)) := fun cs =>
  match cs with
  | mark :: rest =>
    if mark = 'e' || mark = 'E' then
      let (negative, rest') := Binary64.readSign rest
      (digits rest').map fun r => (some (negative, r.1), r.2)
    else some (none, cs)
  | [] => some (none, [])

/-- The parts of a written number. -/
def numeral : Reader Numeral := fun cs => do
  let (negative, cs) := match cs with
    | '-' :: rest => (true, rest)
    | _ => (false, cs)
  let (whole, cs) ← wholeDigits cs
  let (fraction, cs) ← fraction cs
  let (exponent, cs) ← exponent cs
  return (⟨negative, whole, fraction, exponent⟩, cs)

/-- Items, each followed by a comma or by the closing mark; `fuel` bounds their number. -/
def itemsFrom {α : Type u} (item : Reader α) (close : Char) : Nat → Reader (List α)
  | 0, _ => none
  | fuel + 1, cs =>
    match item (skipBlanks cs) with
    | none => none
    | some (a, cs) =>
      match skipBlanks cs with
      | [] => none
      | c :: rest =>
        if c = ',' then (itemsFrom item close fuel rest).map fun r => (a :: r.1, r.2)
        else if c = close then some ([a], rest)
        else none

/-- Items up to a closing mark, after the opening one. -/
def items {α : Type u} (item : Reader α) (close : Char) : Reader (List α) := fun cs =>
  match skipBlanks cs with
  | [] => none
  | c :: rest =>
    if c = close then some ([], rest) else itemsFrom item close (cs.length + 1) (c :: rest)

/-- A member of an object.  How its value is read may depend on its name. -/
def member {α : Type u} (leaves : Leaves) (valueOf : String → Reader α) : Reader (String × α) :=
  fun cs =>
    match text leaves cs with
    | none => none
    | some (name, cs) =>
      match skipBlanks cs with
      | ':' :: rest => (valueOf name (skipBlanks rest)).map fun r => ((name, r.1), r.2)
      | _ => none

/-- The members of an object, after the opening brace. -/
def members {α : Type u} (leaves : Leaves) (valueOf : String → Reader α) :
    Reader (List (String × α)) :=
  items (member leaves valueOf) '\x7d'

/-- The rest of a text after a word. -/
def word? (word : String) (cs : List Char) : Option (List Char) :=
  if word.toList.isPrefixOf cs then some (cs.drop word.length) else none

/-- A value that is neither array nor object. -/
def scalar (leaves : Leaves) : Reader Json := fun cs =>
  match cs with
  | [] => none
  | c :: _ =>
    if c = '"' then (text leaves cs).map fun r => (.string r.1, r.2)
    else if c = 'n' then (word? "null" cs).map fun rest => (.null, rest)
    else if c = 't' then (word? "true" cs).map fun rest => (.bool true, rest)
    else if c = 'f' then (word? "false" cs).map fun rest => (.bool false, rest)
    else
      match numeral cs with
      | none => none
      | some (n, rest) => (leaves.number n).map fun n => (.number n, rest)

/-- A value with a limited number of nested arrays and objects. -/
def value (leaves : Leaves) (levels : Nat) : Reader Json := fun cs =>
  match levels, cs with
  | 0, '[' :: _ => none
  | 0, '\x7b' :: _ => none
  | levels + 1, '[' :: rest =>
    (items (value leaves levels) ']' rest).map fun r => (.array r.1, r.2)
  | levels + 1, '\x7b' :: rest =>
    (members leaves (fun _ => value leaves levels) rest).map fun r => (.object r.1, r.2)
  | _, cs => scalar leaves cs

/-- A value that is passed over. -/
def skipped : Reader Unit := fun cs =>
  (value Leaves.any cs.length cs).map fun r => ((), r.2)

/-- What a reader finds in a whole document, which may have blanks around it. -/
def document {α : Type u} (reader : Reader α) (s : String) : Option α :=
  match reader (skipBlanks s.toList) with
  | none => none
  | some (a, rest) => if (skipBlanks rest).isEmpty then some a else none

/-- How many arrays and objects a document may nest in one another. -/
def levelLimit : Nat := 127

end Reader

/-- Read a document. -/
def read? (s : String) : Option Json :=
  Reader.document (Reader.value .exact Reader.levelLimit) s

end Testbed.Json
