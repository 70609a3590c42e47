import Testbed.Toml.Document
import Testbed.Toml.Word

/-!
# Reading TOML

A reader takes something off the front of the text and leaves the rest.  Arrays and tables in braces
are nested to a limited depth, on which `value` recurses; lists within the text are read with as
much fuel as there are characters, and every item takes at least one.
-/

namespace Testbed.Toml.Reader

/-- Takes a value off the front of a text, or fails. -/
abbrev Parse (α : Type) := List Char → Option (α × List Char)

/-- Blanks within a line. -/
def isBlank (c : Char) : Bool := c = ' ' || c = '\t'

/-- The text from its first character that is not blank. -/
def skipBlanks (cs : List Char) : List Char := cs.dropWhile isBlank

/-- The text after a line break. -/
def lineBreak? : List Char → Option (List Char)
  | '\n' :: rest => some rest
  | '\r' :: '\n' :: rest => some rest
  | _ => none

/-- The characters that stand for themselves in a comment and in quotes: all but the control
characters, of which the tab may be used. -/
def isPlain (c : Char) : Bool := c = '\t' || (0x20 ≤ c.toNat && c.toNat != 0x7F)

/-- The text after a comment, if there is one. -/
def skipComment : List Char → List Char
  | '#' :: rest => rest.dropWhile isPlain
  | cs => cs

/-- The text without the blanks, line breaks and comments that it begins with. -/
def skipTrivia : (fuel : Nat) → List Char → List Char
  | 0, cs => cs
  | fuel + 1, cs =>
    let cs := skipComment (skipBlanks cs)
    match lineBreak? cs with
    | some rest => skipTrivia fuel rest
    | none => cs

/-- As `skipTrivia`, however long the text is. -/
def skipAll (cs : List Char) : List Char := skipTrivia cs.length cs

/-- A character given by its code point in base sixteen. -/
def codePoint? (digits : List Char) : Option Char :=
  if digits.all (Word.isDigitOf 16) then
    let n := digits.foldl (fun n c => n * 16 + Word.digitValue c) 0
    if h : n.isValidChar then some (Char.ofNatAux n h) else none
  else none

/-- The character of an escape, after the backslash. -/
def escape : Parse Char
  | 'b' :: rest => some ('\x08', rest)
  | 't' :: rest => some ('\t', rest)
  | 'n' :: rest => some ('\n', rest)
  | 'f' :: rest => some ('\x0c', rest)
  | 'r' :: rest => some ('\r', rest)
  | 'e' :: rest => some ('\x1b', rest)
  | '"' :: rest => some ('"', rest)
  | '\\' :: rest => some ('\\', rest)
  | 'x' :: a :: b :: rest => (codePoint? [a, b]).map fun c => (c, rest)
  | 'u' :: a :: b :: c :: d :: rest => (codePoint? [a, b, c, d]).map fun c => (c, rest)
  | 'U' :: a :: b :: c :: d :: e :: f :: g :: h :: rest =>
    (codePoint? [a, b, c, d, e, f, g, h]).map fun c => (c, rest)
  | _ => none

/-- The characters of a text on one line, up to the closing quote.  Only between double quotes a
backslash begins an escape. -/
def lineBody (quote : Char) : (fuel : Nat) → Parse (List Char)
  | 0, _ => none
  | _ + 1, [] => none
  | fuel + 1, c :: rest =>
    if c = quote then some ([], rest)
    else if quote = '"' && c = '\\' then
      match escape rest with
      | none => none
      | some (d, rest) => (lineBody quote fuel rest).map fun r => (d :: r.1, r.2)
    else if isPlain c then (lineBody quote fuel rest).map fun r => (c :: r.1, r.2)
    else none

/-- The text after a backslash at the end of a line: it takes the line break with all blanks and
line breaks after it. -/
def continuation? (cs : List Char) : Option (List Char) :=
  (lineBreak? (skipBlanks cs)).map fun rest =>
    rest.dropWhile fun c => isBlank c || c = '\n' || c = '\r'

/-- The characters of a text over several lines, up to three closing quotes.  One or two more quotes
before them belong to the text. -/
def linesBody (quote : Char) : (fuel : Nat) → Parse (List Char)
  | 0, _ => none
  | _ + 1, [] => none
  | fuel + 1, c :: rest =>
    if c = quote then
      let quotes := (c :: rest).takeWhile (· = quote)
      if quotes.length < 3 then
        (linesBody quote fuel rest).map fun r => (c :: r.1, r.2)
      else if quotes.length ≤ 5 then
        some (quotes.drop 3, (c :: rest).drop quotes.length)
      else none
    else if quote = '"' && c = '\\' then
      match continuation? rest with
      | some rest => linesBody quote fuel rest
      | none =>
        match escape rest with
        | none => none
        | some (d, rest) => (linesBody quote fuel rest).map fun r => (d :: r.1, r.2)
    else if c = '\r' && rest.head? != some '\n' then none
    else if isPlain c || c = '\n' || c = '\r' then
      (linesBody quote fuel rest).map fun r => (c :: r.1, r.2)
    else none

/-- A text on one line, after its opening quote. -/
def line (quote : Char) : Parse String := fun cs =>
  (lineBody quote (cs.length + 1) cs).map fun r => (String.ofList r.1, r.2)

/-- A text over several lines, after its opening quotes; a line break right after them does not
count. -/
def lines (quote : Char) : Parse String := fun cs =>
  let cs := (lineBreak? cs).getD cs
  (linesBody quote (cs.length + 1) cs).map fun r => (String.ofList r.1, r.2)

/-- The characters of a key without quotes. -/
def isKeyChar (c : Char) : Bool := c.isAlphanum || c = '_' || c = '-'

/-- One part of a key. -/
def keyPart : Parse String
  | '"' :: rest => line '"' rest
  | '\'' :: rest => line '\'' rest
  | cs =>
    let found := cs.takeWhile isKeyChar
    if found.isEmpty then none else some (String.ofList found, cs.dropWhile isKeyChar)

/-- The parts of a dotted key, with blanks around each. -/
def keyParts : (fuel : Nat) → Parse (List String)
  | 0, _ => none
  | fuel + 1, cs =>
    match keyPart (skipBlanks cs) with
    | none => none
    | some (part, rest) =>
      match skipBlanks rest with
      | '.' :: rest => (keyParts fuel rest).map fun r => (part :: r.1, r.2)
      | rest => some ([part], rest)

/-- A dotted key: the parts on the way, and the last one. -/
def key : Parse (List String × String) := fun cs =>
  match keyParts (cs.length + 1) cs with
  | none => none
  | some (parts, rest) => parts.getLast?.map fun last => ((parts.dropLast, last), rest)

/-- Items up to a closing mark, with a comma after each but perhaps the last. -/
def items {α : Type} (item : Parse α) (close : Char) : (fuel : Nat) → Parse (List α)
  | 0, _ => none
  | fuel + 1, cs =>
    let cs := skipAll cs
    if cs.head? = some close then some ([], cs.tail)
    else
      match item cs with
      | none => none
      | some (a, rest) =>
        match skipAll rest with
        | [] => none
        | c :: rest =>
          if c = ',' then (items item close fuel rest).map fun r => (a :: r.1, r.2)
          else if c = close then some ([a], rest)
          else none

/-- An assignment whose value is read by a given reader. -/
def assignment (value : Parse Toml) : Parse Assignment := fun cs =>
  match key cs with
  | none => none
  | some ((path, last), rest) =>
    match rest with
    | '=' :: rest => (value (skipBlanks rest)).map fun r => (⟨path, last, r.1⟩, r.2)
    | _ => none

/-- A value without quotes.  A date may be followed by a blank and a time. -/
def word : Parse Toml := fun cs =>
  let found := cs.takeWhile Word.isWordChar
  let rest := cs.dropWhile Word.isWordChar
  match Word.isDate found, rest with
  | true, ' ' :: c :: more =>
    if c.isDigit then
      (Word.value? (found ++ ' ' :: (c :: more).takeWhile Word.isWordChar)).map fun v =>
        (v, (c :: more).dropWhile Word.isWordChar)
    else (Word.value? found).map fun v => (v, rest)
  | _, _ => (Word.value? found).map fun v => (v, rest)

/-- A value in quotes, or a word. -/
def scalar : Parse Toml
  | '"' :: '"' :: '"' :: rest => (lines '"' rest).map fun r => (.string r.1, r.2)
  | '\'' :: '\'' :: '\'' :: rest => (lines '\'' rest).map fun r => (.string r.1, r.2)
  | '"' :: rest => (line '"' rest).map fun r => (.string r.1, r.2)
  | '\'' :: rest => (line '\'' rest).map fun r => (.string r.1, r.2)
  | cs => word cs

/-- A value with a limited number of nested arrays and tables. -/
def value (levels : Nat) : Parse Toml := fun cs =>
  match levels, cs with
  | 0, '[' :: _ => none
  | 0, '\x7b' :: _ => none
  | levels + 1, '[' :: rest =>
    (items (value levels) ']' (rest.length + 1) rest).map fun r => (.array r.1, r.2)
  | levels + 1, '\x7b' :: rest =>
    match items (assignment (value levels)) '\x7d' (rest.length + 1) rest with
    | none => none
    | some (assignments, rest) => (tableOf assignments).map fun t => (t, rest)
  | _, cs => scalar cs

/-- How many arrays and tables a document may nest in one another. -/
def levelLimit : Nat := 80

/-- A statement, without the end of its line. -/
def statement : Parse Statement
  | '[' :: '[' :: rest =>
    match key rest with
    | some ((path, last), ']' :: ']' :: rest) => some (.item path last, rest)
    | _ => none
  | '[' :: rest =>
    match key rest with
    | some ((path, last), ']' :: rest) => some (.table path last, rest)
    | _ => none
  | cs => (assignment (value levelLimit) cs).map fun r => (.assignment r.1, r.2)

/-- All statements of a document, each on a line of its own. -/
def statements : (fuel : Nat) → List Char → Option (List Statement)
  | 0, _ => none
  | fuel + 1, cs =>
    let cs := skipAll cs
    if cs.isEmpty then some []
    else
      match statement cs with
      | none => none
      | some (s, rest) =>
        let rest := skipComment (skipBlanks rest)
        if rest.isEmpty then some [s]
        else
          match lineBreak? rest with
          | some rest => (statements fuel rest).map (s :: ·)
          | none => none

/-- A mark at the front of a text that only tells its encoding. -/
def skipEncodingMark : List Char → List Char
  | '\uFEFF' :: rest => rest
  | cs => cs

end Reader

/-- Read a document: the entries of its table. -/
def read? (s : String) : Option (List (String × Toml)) :=
  let cs := Reader.skipEncodingMark s.toList
  (Reader.statements (cs.length + 1) cs).bind ofStatements?

end Testbed.Toml
