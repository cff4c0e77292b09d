import DataAccess.Number.Double

/-!
The decimal text of a number: the fewest digits that read back as the number, and of those the
nearest ones, a tie to the even digit.
-/
namespace DataAccess.Double

/-- A number written `digits * 10 ^ power`. -/
structure Decimal where
  digits : Nat
  power : Int
  deriving DecidableEq, Repr

/-- Whether `10 ^ k ≤ num / den`. -/
def reaches (num den : Nat) (k : Int) : Bool := den * pow10 k.toNat ≤ num * pow10 (-k).toNat

/-- The power of ten of the first digit. -/
def leadingPower (num den : Nat) : Int :=
  let k := (((num.log2 : Int) - den.log2) * 30103).fdiv 100000
  if reaches num den (k + 1) then k + 1 else if reaches num den k then k else k - 1

def Decimal.value (d : Decimal) : Nat × Nat := 
  (d.digits * pow10 d.power.toNat, pow10 (-d.power).toNat)

/-- The decimal is nearer to the number than to every other number. -/
def readsBack (x : Double) (d : Decimal) : Bool :=
  ofRatio x.negative d.value.1 d.value.2 == some x

/-- The better of the two neighbours of the number among the multiples of `10 ^ power`. -/
def atPower (x : Double) (power : Int) : Option Decimal :=
  let num := x.numerator * pow10 (-power).toNat
  let den := x.denominator * pow10 power.toNat
  let q := num / den
  let low : Decimal := ⟨q, power⟩
  let high : Decimal := ⟨q + 1, power⟩
  match readsBack x low, readsBack x high with
  | true, true => if roundDiv num den = q then some low else some high
  | true, false => some low
  | false, true => some high
  | false, false => none

def shortestFrom (x : Double) (lead : Int) : Nat → Nat → Decimal
  | 0, count => (atPower x (lead + 1 - count)).getD ⟨0, 0⟩
  | more + 1, count =>
    match atPower x (lead + 1 - count) with
    | some d => d
    | none => shortestFrom x lead more (count + 1)

/-- Seventeen digits always read back. -/
def shortest (x : Double) : Decimal :=
  shortestFrom x (leadingPower x.numerator x.denominator) 16 1

/-- Which powers of the first digit are written without an exponent. -/
structure Layout where
  plainFrom : Int
  plainBelow : Int

/-- Plain from `0.00001` up to sixteen digits before the point. -/
def layout : Layout := ⟨-5, 16⟩

def zeros (n : Nat) : List Char := List.replicate n '0'

/-- The digits of `d` with the point after the first `lead + 1` of them. -/
def plain (digits : List Char) (lead : Int) : List Char :=
  if lead < 0 then '0' :: '.' :: zeros (-lead - 1).toNat ++ digits
  else
    let whole := lead.toNat + 1
    if digits.length ≤ whole then digits ++ zeros (whole - digits.length) ++ ['.', '0']
    else digits.take whole ++ '.' :: digits.drop whole

def scientific (digits : List Char) (lead : Int) : List Char :=
  digits.take 1 ++ (if digits.length ≤ 1 then [] else '.' :: digits.drop 1) ++
    'e' :: (if lead < 0 then '-' else '+') :: Nat.toDigits 10 lead.natAbs

def chars (x : Double) : List Char :=
  (if x.negative then ['-'] else []) ++
  if x.significand = 0 then ['0', '.', '0'] else
  let d := x.shortest
  let written := Nat.toDigits 10 d.digits
  let lead := d.power + written.length - 1
  let digits := (written.reverse.dropWhile (· = '0')).reverse
  if layout.plainFrom ≤ lead && lead < layout.plainBelow then plain digits lead
  else scientific digits lead

end DataAccess.Double
