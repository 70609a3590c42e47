/-!
# Double-precision numbers

A finite double is kept as sign, significand and exponent, and every operation is rounded from exact
integer arithmetic: `ofRatio` takes a quotient of natural numbers to the nearest double, ties to the
even significand, and all other operations go through it.
-/

-- A power of numbers is the one of the core library, whatever else a module imports.
attribute [instance (2000), default_instance 20000] instPowNat

namespace Testbed

/-- A finite double-precision number, `± significand · 2 ^ exponent`.  The functions below give the
significand fewer than 54 bits, and 53 of them unless the exponent is the least one. -/
structure Binary64 where
  negative : Bool
  significand : Nat
  exponent : Int
  deriving DecidableEq

namespace Binary64

/-- The exponent of the subnormal numbers, the least one. -/
def leastExponent : Int := -1074

/-- The greatest exponent of a finite number. -/
def greatestExponent : Int := 971

/-- The number of significand bits. -/
def precision : Nat := 53

/-- Zero of either sign. -/
def zero (negative : Bool) : Binary64 := ⟨negative, 0, leastExponent⟩

/-- The quotient of two natural numbers, rounded to the nearest one; a tie goes to the even one. -/
def roundDiv (num den : Nat) : Nat :=
  let q := num / den
  let r := num % den
  if 2 * r < den then q
  else if den < 2 * r then q + 1
  else if q % 2 = 0 then q
  else q + 1

/-- The greatest `k` with `2 ^ k ≤ num / den`. -/
def floorLog2 (num den : Nat) : Int :=
  let k : Int := (num.log2 : Int) - (den.log2 : Int)
  if num * 2 ^ (-k).toNat < den * 2 ^ k.toNat then k - 1 else k

/-- The number of a rounded significand, unless it is too large to be finite. -/
def ofSignificand (negative : Bool) (significand : Nat) (exponent : Int) : Option Binary64 :=
  if significand = 2 ^ precision then
    if exponent < greatestExponent then some ⟨negative, 2 ^ (precision - 1), exponent + 1⟩
    else none
  else if exponent ≤ greatestExponent then some ⟨negative, significand, exponent⟩
  else none

/-- The double nearest to `num / den`, a tie going to the even significand, and `none` where that
double is infinite. -/
def ofRatio (negative : Bool) (num den : Nat) : Option Binary64 :=
  if num = 0 then some (zero negative)
  else
    let exponent := max (floorLog2 num den - 52) leastExponent
    ofSignificand negative
      (roundDiv (num * 2 ^ (-exponent).toNat) (den * 2 ^ exponent.toNat)) exponent

/-- The numerator of the magnitude. -/
def numerator (x : Binary64) : Nat := x.significand * 2 ^ x.exponent.toNat

/-- The denominator of the magnitude, a power of two. -/
def denominator (x : Binary64) : Nat := 2 ^ (-x.exponent).toNat

/-- The product, `none` where it is infinite. -/
def mul (x y : Binary64) : Option Binary64 :=
  ofRatio (x.negative != y.negative) (x.numerator * y.numerator) (x.denominator * y.denominator)

/-- The quotient by a number that is not zero, `none` where it is infinite. -/
def div (x y : Binary64) : Option Binary64 :=
  ofRatio (x.negative != y.negative) (x.numerator * y.denominator) (x.denominator * y.numerator)

/-- Whether the number is zero, of either sign. -/
def isZero (x : Binary64) : Bool := x.significand == 0

/-- The same magnitude with a given sign. -/
def withSign (x : Binary64) (negative : Bool) : Binary64 := { x with negative := negative }

/-- The double nearest to an integer. -/
def ofInt (n : Int) : Option Binary64 := ofRatio (n < 0) n.natAbs 1

/-- What a decimal literal or a setting may denote. -/
inductive Extended where
  | finite (x : Binary64)
  | infinite (negative : Bool)
  | nan
  deriving DecidableEq

end Binary64

end Testbed
