import Testbed.Binary64.Literal
import Testbed.Toml.Basic

/-!
# Unquoted values

Truth values, numbers, dates and times are written without quotes.  Digits may have single
underscores between them, decimal numbers have no zero in front, and a float has a fraction, an
exponent or both.
-/

namespace Testbed.Toml.Word

/-- The characters that unquoted values are written with. -/
def isWordChar (c : Char) : Bool :=
  c.isAlphanum || c = '_' || c = '+' || c = '-' || c = '.' || c = ':'

/-- Whether every underscore stands between two digits; the flag tells of a digit just before. -/
def underscoresFit (isDigit : Char → Bool) : Bool → List Char → Bool
  | afterDigit, [] => afterDigit
  | afterDigit, c :: rest =>
    if c = '_' then afterDigit && underscoresFit isDigit false rest
    else isDigit c && underscoresFit isDigit true rest

/-- Digits with underscores between them, given back without the underscores. -/
def digits? (isDigit : Char → Bool) (cs : List Char) : Option (List Char) :=
  if underscoresFit isDigit false cs then some (cs.filter (· != '_')) else none

/-- Digits of a decimal number: no zero in front of others. -/
def wholeDigits? (cs : List Char) : Option (List Char) :=
  match digits? Char.isDigit cs with
  | some ('0' :: _ :: _) => none
  | found => found

/-- The value of a digit in a base up to sixteen. -/
def digitValue (c : Char) : Nat :=
  if c.isDigit then c.toNat - '0'.toNat else c.toLower.toNat - 'a'.toNat + 10

/-- Whether a character is a digit of a base. -/
def isDigitOf (base : Nat) (c : Char) : Bool :=
  (c.isDigit || ('a' ≤ c.toLower && c.toLower ≤ 'f')) && digitValue c < base

/-- A number in another base than ten. -/
def based? (base : Nat) (cs : List Char) : Option Int :=
  (digits? (isDigitOf base) cs).map fun ds =>
    ((ds.foldl (fun n c => n * base + digitValue c) 0 : Nat) : Int)

/-- An integer. -/
def integer? : List Char → Option Int
  | '0' :: 'x' :: rest => based? 16 rest
  | '0' :: 'o' :: rest => based? 8 rest
  | '0' :: 'b' :: rest => based? 2 rest
  | cs =>
    let (negative, unsigned) := Binary64.readSign cs
    (wholeDigits? unsigned).map fun ds =>
      let n : Int := Binary64.digitsValue ds
      if negative then -n else n

/-- The part of a float after its whole digits: a fraction, an exponent or both, given back without
underscores. -/
def fractionAndExponent? (cs : List Char) : Option (List Char) :=
  let isMark (c : Char) : Bool := c = 'e' || c = 'E'
  let fraction := cs.takeWhile fun c => !isMark c
  let exponent := cs.dropWhile fun c => !isMark c
  let fraction? : Option (List Char) := match fraction with
    | [] => some []
    | '.' :: ds => (digits? Char.isDigit ds).map ('.' :: ·)
    | _ => none
  let exponent? : Option (List Char) := match exponent with
    | [] => some []
    | _ :: '+' :: ds => (digits? Char.isDigit ds).map ('e' :: ·)
    | _ :: '-' :: ds => (digits? Char.isDigit ds).map fun ds => 'e' :: '-' :: ds
    | _ :: ds => (digits? Char.isDigit ds).map ('e' :: ·)
  if cs.isEmpty then none
  else do return (← fraction?) ++ (← exponent?)

/-- The value of a float without underscores. -/
def floatValue (literal : String) : Option Toml :=
  (Binary64.readLiteral? literal).map fun
    | .infinite _ => .overlarge
    | x => .float x

/-- A float. -/
def float? (cs : List Char) : Option Toml :=
  let (negative, unsigned) := Binary64.readSign cs
  if unsigned = "inf".toList then some (.float (.infinite negative))
  else if unsigned = "nan".toList then some (.float .nan)
  else do
    let isPlain (c : Char) : Bool := c.isDigit || c = '_'
    let whole ← wholeDigits? (unsigned.takeWhile isPlain)
    let rest ← fractionAndExponent? (unsigned.dropWhile isPlain)
    floatValue (String.ofList ((if negative then ['-'] else []) ++ whole ++ rest))

/-- The value of exactly some digits, if it lies within bounds. -/
def field? (count least greatest : Nat) (cs : List Char) : Option (Nat × List Char) :=
  let ds := cs.take count
  let n := Binary64.digitsValue ds
  if ds.length = count && ds.all Char.isDigit && least ≤ n && n ≤ greatest then
    some (n, cs.drop count)
  else none

/-- Take a character off the front. -/
def mark? (c : Char) (cs : List Char) : Option (List Char) :=
  match cs with
  | d :: rest => if c = d then some rest else none
  | [] => none

/-- How many days a month has. -/
def daysOfMonth (year month : Nat) : Nat :=
  if month = 2 then
    if year % 4 = 0 && (year % 100 != 0 || year % 400 = 0) then 29 else 28
  else if month = 4 || month = 6 || month = 9 || month = 11 then 30
  else 31

/-- Pass over a date. -/
def date? (cs : List Char) : Option (List Char) := do
  let (year, cs) ← field? 4 0 9999 cs
  let cs ← mark? '-' cs
  let (month, cs) ← field? 2 1 12 cs
  let cs ← mark? '-' cs
  let (_, cs) ← field? 2 1 (daysOfMonth year month) cs
  return cs

/-- Pass over the fraction of a second, if there is one. -/
def secondFraction? : List Char → Option (List Char)
  | '.' :: rest =>
    if (rest.takeWhile Char.isDigit).isEmpty then none else some (rest.dropWhile Char.isDigit)
  | cs => some cs

/-- Pass over a time of day; the seconds may be left out. -/
def time? (cs : List Char) : Option (List Char) := do
  let (_, cs) ← field? 2 0 23 cs
  let cs ← mark? ':' cs
  let (_, cs) ← field? 2 0 59 cs
  match cs with
  | ':' :: rest =>
    let (_, rest) ← field? 2 0 60 rest
    secondFraction? rest
  | _ => return cs

/-- Pass over the offset of a time, if there is one. -/
def offset? : List Char → Option (List Char)
  | [] => some []
  | 'Z' :: rest => some rest
  | 'z' :: rest => some rest
  | c :: rest => do
    if c = '+' || c = '-' then
      let (_, rest) ← field? 2 0 23 rest
      let rest ← mark? ':' rest
      let (_, rest) ← field? 2 0 59 rest
      return rest
    else none

/-- Whether a word is a date. -/
def isDate (cs : List Char) : Bool := date? cs == some []

/-- Whether a word is a date, a time, or a date and a time with or without offset. -/
def isTime (cs : List Char) : Bool :=
  let dateTime : Option (List Char) := do
    match ← date? cs with
    | c :: rest => if c = 'T' || c = 't' || c = ' ' then offset? (← time? rest) else none
    | [] => none
  isDate cs || time? cs == some [] || dateTime == some []

/-- The value that a word denotes. -/
def value? (cs : List Char) : Option Toml :=
  if cs = "true".toList then some (.boolean true)
  else if cs = "false".toList then some (.boolean false)
  else if isTime cs then some (.time (String.ofList cs))
  else
    match integer? cs with
    | some n => some (.integer n)
    | none => float? cs

end Testbed.Toml.Word
