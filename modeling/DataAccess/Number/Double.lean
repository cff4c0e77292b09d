import DataAccess.Number.Power

/-!
Finite binary floating-point numbers of 53 significant bits, kept as a sign, a significand and a
power of two. Every result is the exact quotient rounded to the nearest number, ties to even.
-/
namespace DataAccess

structure Double where
  negative : Bool
  significand : Nat
  exponent : Int
  deriving DecidableEq, Repr, Inhabited

namespace Double

def lowestExponent : Int := -1074
def highestExponent : Int := 971

def zero (negative : Bool) : Double := ⟨negative, 0, lowestExponent⟩

/-- Quotient to the nearest integer, a tie to the even one. -/
def roundDiv (num den : Nat) : Nat :=
  let q := num / den
  let r := num % den
  if 2 * r < den then q else if den < 2 * r then q + 1 else q + q % 2

/-- `num / (den * 2 ^ e)` to the nearest integer. -/
def roundAt (num den : Nat) (e : Int) : Nat :=
  roundDiv (num * pow2 (-e).toNat) (den * pow2 e.toNat)

/-- The exponent that leaves 53 bits before the point, or the lowest one. -/
def exponentOf (num den : Nat) : Int :=
  let e : Int := (num.log2 : Int) - den.log2 - 52
  let fits := pow2 52 * (den * pow2 e.toNat) ≤ num * pow2 (-e).toNat
  max (if fits then e else e - 1) lowestExponent

/-- The nearest number to a quotient, unless it is too large. -/
def ofRatio (negative : Bool) (num den : Nat) : Option Double :=
  if num = 0 then some (zero negative) else
  let e := exponentOf num den
  let m := roundAt num den e
  let (m, e) := if m = pow2 53 then (pow2 52, e + 1) else (m, e)
  if highestExponent < e then none else some ⟨negative, m, e⟩

def numerator (x : Double) : Nat := x.significand * pow2 x.exponent.toNat
def denominator (x : Double) : Nat := pow2 (-x.exponent).toNat

def mul (x y : Double) : Option Double :=
  ofRatio (x.negative ^^ y.negative) (x.numerator * y.numerator) (x.denominator * y.denominator)

/-- The divisor is not zero. -/
def div (x y : Double) : Option Double :=
  ofRatio (x.negative ^^ y.negative) (x.numerator * y.denominator) (x.denominator * y.numerator)

def ofInt (i : Int) : Double := (ofRatio (i < 0) i.natAbs 1).getD (zero false)

/-- Numbers compare by value: the two zeros are equal. -/
def same (x y : Double) : Bool :=
  x == y || (x.significand == 0 && y.significand == 0)

def tenTo (k : Nat) : Double := (ofRatio false (pow10 k) 1).getD (zero false)

def largestPower : Nat := 308

/-- Scales by a power of ten below one, in steps of at most the largest power that is a number. -/
def scaleDown (x : Double) : Nat → Nat → Option Double
  | 0, k => x.div (tenTo (min k largestPower))
  | steps + 1, k =>
    if k ≤ largestPower then x.div (tenTo k)
    else if x.significand = 0 then some x
    else do scaleDown (← x.div (tenTo largestPower)) steps (k - largestPower)

/-- A whole number of at most 64 bits times a power of ten, each step rounded. -/
def scaled (negative : Bool) (digits : Nat) (power : Int) : Option Double := do
  let x ← ofRatio negative digits 1
  if 0 ≤ power then
    if power ≤ largestPower then x.mul (tenTo power.toNat)
    else if digits = 0 then some x else none
  else x.scaleDown 3 (-power).toNat

end Double
end DataAccess
