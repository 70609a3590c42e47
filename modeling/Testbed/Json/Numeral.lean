import Testbed.Binary64.Literal
import Testbed.Json.Basic

/-!
# Numerals

How a written number becomes an integer or a double.  The digits are gathered into 64 bits; a
numeral without point and exponent whose digits fit stays an integer.  Otherwise the gathered digits
are rounded to a double and scaled by one power of ten, so a long numeral may end up a unit away
from the nearest double.  A numeral beyond the greatest double denotes nothing.
-/

namespace Testbed.Json

/-- The parts of a written number: its sign, the digits before the point, those after it, and the
sign and digits of its exponent. -/
structure Numeral where
  negative : Bool
  whole : List Char
  fraction : Option (List Char)
  exponent : Option (Bool × List Char)

namespace Numeral

/-- The greatest number of 64 bits. -/
def greatestWord : Nat := 2 ^ 64 - 1

/-- Gather digits into a word as long as they fit.  The count tells how many were taken, and the
digits that were not are left. -/
def gather (word taken : Nat) : List Char → Nat × Nat × List Char
  | [] => (word, taken, [])
  | c :: rest =>
    let next := 10 * word + (c.toNat - '0'.toNat)
    if next ≤ greatestWord then gather next (taken + 1) rest else (word, taken, c :: rest)

/-- A power of ten as a double. -/
def powerOfTen (k : Nat) : Binary64 :=
  (Binary64.ofRatio false (10 ^ k) 1).getD (Binary64.zero false)

/-- The exponent of the greatest power of ten that is a finite double. -/
def greatestPower : Nat := 308

/-- Multiply or divide by a power of ten, rounding once.  An exponent far below is worked off in
divisions by the greatest power; three of them turn every word into zero, so `steps` bounds them. -/
def scale (steps : Nat) (x : Binary64) (exponent : Int) : Option Binary64 :=
  if exponent.natAbs ≤ greatestPower then
    if 0 ≤ exponent then x.mul (powerOfTen exponent.natAbs)
    else x.div (powerOfTen exponent.natAbs)
  else if x.isZero then some x
  else if 0 ≤ exponent then none
  else
    match steps with
    | 0 => some (Binary64.zero x.negative)
    | steps + 1 =>
      (x.div (powerOfTen greatestPower)).bind fun y => scale steps y (exponent + greatestPower)

/-- The double of gathered digits and a power of ten. -/
def ofParts (negative : Bool) (word : Nat) (exponent : Int) : Option Number :=
  ((Binary64.ofRatio false word 1).bind fun x => scale 3 x exponent).map fun x =>
    .float (x.withSign negative)

/-- The greatest exponent that is computed with. -/
def greatestExponent : Nat := 2 ^ 31 - 1

/-- The number of gathered digits whose last one has a given power of ten, with the written exponent
added.  An exponent too large to compute with leaves zero, or nothing. -/
def withExponent (negative : Bool) (word : Nat) (power : Int) :
    Option (Bool × List Char) → Option Number
  | none => ofParts negative word power
  | some (exponentNegative, digits) =>
    let exponent := Binary64.digitsValue digits
    if greatestExponent < exponent then
      if word != 0 && !exponentNegative then none
      else some (.float (Binary64.zero negative))
    else ofParts negative word (power + if exponentNegative then -(exponent : Int) else exponent)

/-- The number that a numeral denotes. -/
def number? (n : Numeral) : Option Number :=
  let (word, _, left) := gather 0 0 n.whole
  match n.fraction with
  | some fraction =>
    let (word', taken, _) := gather word 0 fraction
    withExponent n.negative word' ((left.length : Int) - taken) n.exponent
  | none =>
    if n.exponent.isSome || !left.isEmpty then
      withExponent n.negative word left.length n.exponent
    else if !n.negative then some (.int word)
    else if 0 < word && word ≤ 2 ^ 63 then some (.int (-(word : Int)))
    else ofParts true word 0

end Numeral

end Testbed.Json
