import Testbed.Binary64.Basic

/-!
# Decimal literals

The written forms of a double: an optional sign, digits with at most one point among them, an
optional exponent, and the words for infinity and for what is no number.  A literal denotes the
double nearest to the decimal number it spells.
-/

namespace Testbed.Binary64

/-- The value of a list of decimal digits. -/
def digitsValue (digits : List Char) : Nat :=
  digits.foldl (fun n c => 10 * n + (c.toNat - '0'.toNat)) 0

/-- The double nearest to `± digits · 10 ^ exponent`.  Far beyond the range of doubles the answer is
plain, so that no large power is computed. -/
def ofDecimal (negative : Bool) (digits : Nat) (exponent : Int) : Extended :=
  if digits = 0 then .finite (zero negative)
  else if exponent > 400 then .infinite negative
  else if exponent + digits.log2 < -800 then .finite (zero negative)
  else
    match ofRatio negative (digits * 10 ^ exponent.toNat) (10 ^ (-exponent).toNat) with
    | some x => .finite x
    | none => .infinite negative

/-- Take a sign off the front; the flag says whether it is a minus. -/
def readSign : List Char → Bool × List Char
  | '-' :: rest => (true, rest)
  | '+' :: rest => (false, rest)
  | cs => (false, cs)

/-- The exponent part of a literal, which ends the text; no part at all stands for zero. -/
def readExponent? : List Char → Option Int
  | [] => some 0
  | mark :: rest =>
    if mark = 'e' || mark = 'E' then
      let (negative, digits) := readSign rest
      if digits.isEmpty || !digits.all Char.isDigit then none
      else some (if negative then -(digitsValue digits : Int) else digitsValue digits)
    else none

/-- The number of an unsigned literal of digits. -/
def readDigits? (negative : Bool) (cs : List Char) : Option Extended :=
  let whole := cs.takeWhile Char.isDigit
  let afterWhole := cs.dropWhile Char.isDigit
  let (fraction, rest) :=
    match afterWhole with
    | '.' :: tail => (tail.takeWhile Char.isDigit, tail.dropWhile Char.isDigit)
    | tail => ([], tail)
  if whole.isEmpty && fraction.isEmpty then none
  else
    (readExponent? rest).map fun exponent =>
      ofDecimal negative (digitsValue (whole ++ fraction)) (exponent - fraction.length)

/-- The double that a literal denotes.  The words are read in either case. -/
def readLiteral? (s : String) : Option Extended :=
  let (negative, cs) := readSign s.toList
  let word := String.ofList (cs.map Char.toLower)
  if word = "inf" || word = "infinity" then some (.infinite negative)
  else if word = "nan" then some .nan
  else readDigits? negative cs

end Testbed.Binary64
