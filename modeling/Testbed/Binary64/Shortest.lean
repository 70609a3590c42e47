import Testbed.Binary64.Basic

/-!
# Shortest decimal text

A double is written with the fewest decimal digits that read back as the same double, and with those
nearest to it among them.  `shortest` finds digits and power of ten; `text` lays them out: without
an exponent where the point falls within sixteen digits or close to their front, and always with a
point or an exponent, so that the text cannot be taken for an integer.
-/

namespace Testbed.Binary64

/-- The number of decimal digits of a natural number. -/
def digitCount (n : Nat) : Nat := (Nat.toDigits 10 n).length

/-- The greatest `k` with `10 ^ k ≤ num / den`. -/
def floorLog10 (num den : Nat) : Int :=
  if den ≤ num then (digitCount (num / den) : Int) - 1
  else
    let k := digitCount (den / num)
    if den ≤ num * 10 ^ (k - 1) then -(k - 1 : Nat) else -(k : Int)

/-- The numbers that round to a double, as integer multiples of a quarter of the unit of its last
place: `low` and `high` are the ends, which belong to them exactly if the significand is even. -/
structure RoundingInterval where
  low : Nat
  value : Nat
  high : Nat
  closed : Bool

/-- The rounding interval of a double that is not zero.  Below a power of two the doubles lie twice
as close. -/
def roundingInterval (x : Binary64) : RoundingInterval where
  low := 4 * x.significand -
    (if x.significand = 2 ^ (precision - 1) && x.exponent > leastExponent then 1 else 2)
  value := 4 * x.significand
  high := 4 * x.significand + 2
  closed := x.significand % 2 = 0

/-- Whether `num / den`, in quarters of the unit of the last place, rounds to the double. -/
def RoundingInterval.contains (i : RoundingInterval) (num den : Nat) : Bool :=
  if i.closed then i.low * den ≤ num && num ≤ i.high * den
  else i.low * den < num && num < i.high * den

/-- The digits, of a given number, that read back as the double: of the two multiples of
`10 ^ power` around it the nearer one that does. -/
def candidate? (x : Binary64) (power : Int) : Option Nat :=
  let i := x.roundingInterval
  let unit : Int := x.exponent - 2
  -- One step of the decimal grid is `num / den` quarters.
  let num := 10 ^ power.toNat * 2 ^ (-unit).toNat
  let den := 10 ^ (-power).toNat * 2 ^ unit.toNat
  let below := i.value * den / num
  let above := below + 1
  let belowFits := i.contains (below * num) den
  let aboveFits := i.contains (above * num) den
  if belowFits && aboveFits then
    let down := i.value * den - below * num
    let up := above * num - i.value * den
    if down < up then some below
    else if up < down then some above
    else if below % 2 = 0 then some below
    else some above
  else if belowFits then some below
  else if aboveFits then some above
  else none

/-- Take factors of ten out of the digits. -/
def stripZeros (fuel digits : Nat) (power : Int) : Nat × Int :=
  match fuel with
  | 0 => (digits, power)
  | fuel + 1 =>
    if digits % 10 = 0 then stripZeros fuel (digits / 10) (power + 1) else (digits, power)

/-- The shortest digits of a double that is not zero, and the power of ten of the last one.
Seventeen digits always read back. -/
def shortest (x : Binary64) : Nat × Int :=
  let top := floorLog10 x.numerator x.denominator
  let found := (List.range 17).findSome? fun (n : Nat) =>
    let power := top - n
    (candidate? x power).bind fun digits => if digits = 0 then none else some (digits, power)
  match found with
  | some (digits, power) => stripZeros 18 digits power
  | none => (x.significand, x.exponent)

/-- Text of a repeated zero. -/
def zeros (n : Nat) : String := String.ofList (List.replicate n '0')

/-- The text of a positive number `digits · 10 ^ power`. -/
def layout (digits : Nat) (power : Int) : String :=
  let ds := toString digits
  let point : Int := ds.length + power
  if 0 ≤ power && point ≤ 16 then ds ++ zeros power.toNat ++ ".0"
  else if 0 < point && point ≤ 16 then
    String.ofList (ds.toList.take point.toNat) ++ "." ++ String.ofList (ds.toList.drop point.toNat)
  else if -5 < point && point ≤ 0 then "0." ++ zeros (-point).toNat ++ ds
  else
    let exponent := point - 1
    let mark := if exponent < 0 then "e-" else "e+"
    let head := String.ofList (ds.toList.take 1)
    let tail := String.ofList (ds.toList.drop 1)
    head ++ (if tail.isEmpty then "" else "." ++ tail) ++ mark ++ toString exponent.natAbs

/-- The shortest text that reads back as the double. -/
def text (x : Binary64) : String :=
  let sign := if x.negative then "-" else ""
  if x.isZero then sign ++ "0.0"
  else
    let (digits, power) := x.shortest
    sign ++ layout digits power

end Testbed.Binary64
