import Testbed.Text.Utf8

/-!
# Printing

How `echo` and `printf` turn their arguments into bytes: escapes, and conversions with flags, width
and precision.  A format is used again until no arguments are left.
-/

namespace Testbed.Shell.Print

open Text (Bytes)

/-- The bytes of a text. -/
def bytes (s : String) : Bytes := Text.Utf8.encode s

/-- Whether a character is an octal digit. -/
def isOctal (c : Char) : Bool := '0' ≤ c && c ≤ '7'

/-- The byte that octal digits write. -/
def octal (ds : List Char) : UInt8 :=
  UInt8.ofNat (ds.foldl (fun n c => n * 8 + (c.toNat - '0'.toNat)) 0)

/-- The byte of an escape of one letter. -/
def letter? (c : Char) : Option UInt8 :=
  if c = 'a' then some 7
  else if c = 'b' then some 8
  else if c = 'f' then some 12
  else if c = 'n' then some 10
  else if c = 'r' then some 13
  else if c = 't' then some 9
  else if c = 'v' then some 11
  else if c = '\\' then some 92
  else none

/-- What a text with escapes comes to: its bytes, and whether it asks for nothing more to be
printed. -/
structure Escaped where
  bytes : Bytes
  stopped : Bool := false

/-- Put bytes in front. -/
def Escaped.after (e : Escaped) (front : Bytes) : Escaped := { e with bytes := front ++ e.bytes }

/-- The bytes of a text with escapes.  Octal escapes have a zero in front and up to three digits,
and `\c` ends all output. -/
def unescape : (fuel : Nat) → List Char → Escaped
  | 0, _ => { bytes := [] }
  | _ + 1, [] => { bytes := [] }
  | fuel + 1, '\\' :: '0' :: rest =>
    let ds := (rest.take 3).takeWhile isOctal
    (unescape fuel (rest.drop ds.length)).after [octal ds]
  | fuel + 1, '\\' :: c :: rest =>
    if c = 'c' then { bytes := [], stopped := true }
    else
      match letter? c with
      | some b => (unescape fuel rest).after [b]
      | none => (unescape fuel (c :: rest)).after [92]
  | fuel + 1, c :: rest => (unescape fuel rest).after (bytes c.toString)

/-- The bytes of a text with escapes, however long it is. -/
def unescaped (s : String) : Escaped := unescape (s.length + 1) s.toList

/-- What the shell's own `echo` writes: escapes count, and `-n` leaves the line open. -/
def echo : List String → Bytes
  | "-n" :: words => (unescaped (" ".intercalate words)).bytes
  | words =>
    let e := unescaped (" ".intercalate words)
    if e.stopped then e.bytes else e.bytes ++ [10]

/-- Whether a word is an option of the program `echo`. -/
def isEchoOption (word : String) : Bool :=
  match word.toList with
  | '-' :: c :: cs => (c :: cs).all fun c => c = 'n' || c = 'e' || c = 'E'
  | _ => false

/-- What the program `echo` writes: escapes count only where an option asks for them. -/
def echoProgram (words : List String) : Bytes :=
  let options := words.takeWhile isEchoOption
  let letters := options.flatMap fun word => word.toList.drop 1
  let text := " ".intercalate (words.drop options.length)
  let escapes := (letters.filter fun c => c = 'e' || c = 'E').getLast? == some 'e'
  let e : Escaped := if escapes then unescaped text else { bytes := bytes text }
  if letters.contains 'n' || e.stopped then e.bytes else e.bytes ++ [10]

/-- A conversion of a format: flags, width, precision and letter. -/
structure Conversion where
  flags : List Char
  width : Nat
  precision : Option Nat
  letter : Char

/-- Fill a text up to the width, which counts bytes. -/
def Conversion.pad (c : Conversion) (text : String) : String :=
  let filling := List.replicate (c.width - Text.Utf8.size text) ' '
  if c.flags.contains '-' then text ++ String.ofList filling else String.ofList filling ++ text

/-- The number of digits. -/
def value (ds : List Char) : Nat := ds.foldl (fun n c => n * 10 + (c.toNat - '0'.toNat)) 0

/-- A number as an argument writes it, and whether all of the argument was used.  A quote in front
asks for the code of the character behind it. -/
def numberOf (word : String) : Int × Bool :=
  let (negative, cs) := match word.toList.dropWhile fun c => c = ' ' || c = '\t' || c = '\n' with
    | '-' :: rest => (true, rest)
    | '+' :: rest => (false, rest)
    | cs => (false, cs)
  let isHex (c : Char) : Bool := c.isDigit || ('a' ≤ c.toLower && c.toLower ≤ 'f')
  let hexValue (c : Char) : Nat :=
    if c.isDigit then c.toNat - '0'.toNat else c.toLower.toNat - 'a'.toNat + 10
  let (n, rest) : Nat × List Char := match cs with
    | '\'' :: c :: _ => (c.toNat, [])
    | '"' :: c :: _ => (c.toNat, [])
    | '0' :: 'x' :: ds => ((ds.takeWhile isHex).foldl (fun n c => n * 16 + hexValue c) 0,
        ds.dropWhile isHex)
    | '0' :: ds => ((ds.takeWhile isOctal).foldl (fun n c => n * 8 + (c.toNat - '0'.toNat)) 0,
        ds.dropWhile isOctal)
    | ds => (value (ds.takeWhile Char.isDigit), ds.dropWhile Char.isDigit)
  (if negative then -n else n, rest.isEmpty && (!cs.isEmpty || word.isEmpty))

/-- The text of a number in a conversion. -/
def Conversion.number (c : Conversion) (n : Int) : String :=
  let magnitude : Nat := if c.letter = 'd' || c.letter = 'i' then n.natAbs else (n % 2 ^ 64).toNat
  let base := if c.letter = 'o' then 8 else if c.letter = 'x' || c.letter = 'X' then 16 else 10
  let digits := Nat.toDigits base magnitude
  let digits := if c.letter = 'X' then digits.map Char.toUpper else digits
  let sign :=
    if (c.letter = 'd' || c.letter = 'i') && n < 0 then "-"
    else if c.letter = 'd' || c.letter = 'i' then
      if c.flags.contains '+' then "+" else if c.flags.contains ' ' then " " else ""
    else if c.flags.contains '#' && magnitude != 0 then
      if c.letter = 'x' then "0x" else if c.letter = 'X' then "0X"
      else if c.letter = 'o' then "0" else ""
    else ""
  let least := match c.precision with
    | some p => p
    | none =>
      if c.flags.contains '0' && !c.flags.contains '-' then c.width - sign.length else 1
  let zeros := String.ofList (List.replicate (least - digits.length) '0')
  c.pad (sign ++ zeros ++ String.ofList digits)

/-- What is wrong with a format or with its arguments. -/
inductive Fault where
  /-- An argument that should be a number is none at all. -/
  | notNumeric (word : String)
  /-- An argument that should be a number goes on behind one. -/
  | notConverted (word : String)
  | invalidDirective (directive : String)
  | missingLetter
  deriving DecidableEq

/-- The wording of a fault. -/
def Fault.message : Fault → String
  | notNumeric word => word ++ ": expected numeric value"
  | notConverted word => word ++ ": not completely converted"
  | invalidDirective directive => directive ++ ": invalid directive"
  | missingLetter => "missing format character"

/-- Whether a fault ends all output. -/
def Fault.isFatal : Fault → Bool
  | notNumeric _ => false
  | notConverted _ => false
  | _ => true

/-- What a format comes to: bytes, the arguments left, whether one was asked for, the faults, and
whether all output ends. -/
structure Printed where
  bytes : Bytes
  left : List String
  used : Bool := false
  faults : List Fault := []
  stopped : Bool := false

/-- Put bytes in front. -/
def Printed.after (p : Printed) (front : Bytes) : Printed := { p with bytes := front ++ p.bytes }

/-- Read the flags, the width and the precision of a conversion. -/
def conversion? (cs : List Char) : Option (Conversion × List Char) :=
  let isFlag (c : Char) : Bool := c = '-' || c = '+' || c = ' ' || c = '#' || c = '0'
  let flags := cs.takeWhile isFlag
  let cs := cs.dropWhile isFlag
  let width := value (cs.takeWhile Char.isDigit)
  let cs := cs.dropWhile Char.isDigit
  let (precision, cs) : Option Nat × List Char := match cs with
    | '.' :: rest => (some (value (rest.takeWhile Char.isDigit)), rest.dropWhile Char.isDigit)
    | _ => (none, cs)
  match cs with
  | letter :: rest => some ({ flags, width, precision, letter }, rest)
  | [] => none

/-- The fault of an argument that is no number. -/
def numberFault (word : String) : Fault :=
  match word.toList.dropWhile fun c => c = ' ' || c = '-' || c = '+' with
  | c :: _ => if c.isDigit then .notConverted word else .notNumeric word
  | [] => .notNumeric word

/-- Use a format once. -/
def formatOnce : (fuel : Nat) → List Char → List String → Printed
  | 0, _, words => { bytes := [], left := words }
  | _ + 1, [], words => { bytes := [], left := words }
  | fuel + 1, '%' :: '%' :: rest, words => (formatOnce fuel rest words).after [37]
  | fuel + 1, '%' :: rest, words =>
    match conversion? rest with
    | none => { bytes := [], left := [], faults := [.missingLetter], stopped := true }
    | some (c, rest) =>
      let word := words.headD ""
      let p := formatOnce fuel rest words.tail
      if c.letter = 's' then
        let text := match c.precision with
          | some n => String.ofList (word.toList.take n)
          | none => word
        { p.after (bytes (c.pad text)) with used := true }
      else if c.letter = 'b' then
        let e := unescaped word
        if e.stopped then { bytes := e.bytes, left := [], used := true, stopped := true }
        else { p.after e.bytes with used := true }
      else if c.letter = 'c' then
        { p.after (bytes (c.pad (String.ofList (word.toList.take 1)))) with used := true }
      else if "diouxX".toList.contains c.letter then
        let (n, fine) := numberOf word
        { p.after (bytes (c.number n)) with
          used := true
          faults := if fine then p.faults else numberFault word :: p.faults }
      else
        { bytes := [], left := [], stopped := true,
          faults := [.invalidDirective ("%" ++ c.letter.toString)] }
  | fuel + 1, '\\' :: c :: rest, words =>
    let ds := ((c :: rest).take 3).takeWhile isOctal
    if !ds.isEmpty then (formatOnce fuel ((c :: rest).drop ds.length) words).after [octal ds]
    else
      match letter? c with
      | some b => (formatOnce fuel rest words).after [b]
      | none =>
        if c = '"' then (formatOnce fuel rest words).after [34]
        else (formatOnce fuel (c :: rest) words).after [92]
  | fuel + 1, c :: rest, words => (formatOnce fuel rest words).after (bytes c.toString)

/-- Use a format until no arguments are left. -/
def formatAll (format : String) : (fuel : Nat) → List String → Printed
  | 0, words => { bytes := [], left := words }
  | fuel + 1, words =>
    let p := formatOnce (format.length + 1) format.toList words
    if p.stopped || !p.used || p.left.isEmpty then p
    else
      let more := formatAll format fuel p.left
      { more.after p.bytes with faults := p.faults ++ more.faults }

/-- What `printf` writes for a format and its arguments. -/
def printf (format : String) (words : List String) : Printed :=
  formatAll format (words.length + 1) words

end Testbed.Shell.Print
